import Lumen.Editor.Render
import Lumen.Text.Lookup

/-!
# Scripts

What can be asked of an editor is a `Command`. A command changes the editor and has an `Answer`; a
list of commands is run one after the other. The commands inside an operation are run between its
begin and its end.
-/

namespace Lumen

namespace Editor

inductive Command where
  | insert (place : Point) (inserted : Text)
  | delete (start stop : Point)
  | replace (start stop : Point) (inserted : Text)
  | append (inserted : Text)
  | setText (text : Text)
  | scrollTo (row : Nat)
  | resize (rows : Nat)
  | operation (commands : List Command)
  | mark (start stop : Point) (style : Style)
  | clearMark (id : Nat)
  | markIds
  | markRange (id : Nat)
  | marks
  | drain
  | indexOf (place : Point)
  | pointAt (index : Nat)
  | line (row : Nat)
  | viewport
  | render
deriving Inhabited

inductive Answer where
  | done
  | answers (list : List Answer)
  | number (n : Nat)
  | numbers (list : List Nat)
  | point (p : Point)
  | range (ends : Option (Point × Point))
  | marks (list : List Mark)
  | events (list : List Event)
  | line (line : Option Text)
  | rows (rows : RowRange)
  | lines (list : List Text)
deriving Inhabited

mutual
def run (e : Editor) : Command → Checked (Answer × Editor)
  | .insert p t => return (.done, e.insert p t)
  | .delete p q => return (.done, e.delete p q)
  | .replace p q t => return (.done, e.replace p q t)
  | .append t => return (.done, e.append t)
  | .setText t => return (.done, e.setText t)
  | .scrollTo row => return (.done, ← e.scrollTo row)
  | .resize rows => return (.done, ← e.resize rows)
  | .operation commands => do
    let (answers, e) ← runAll e.enter commands
    return (.answers answers, e.leave)
  | .mark p q style =>
    let (id, e) := e.mark p q style
    return (.number id, e)
  | .clearMark id => return (.done, e.clearMark id)
  | .markIds => return (.numbers e.markIds, e)
  | .markRange id => return (.range (e.markRange? id), e)
  | .marks => return (.marks e.marks, e)
  | .drain =>
    let (events, e) := e.drain
    return (.events events, e)
  | .indexOf p => return (.number (← e.text.indexAt p), e)
  | .pointAt i => return (.point (← e.text.pointIn i), e)
  | .line row => return (.line (e.text.line? row), e)
  | .viewport => return (.rows (← e.viewport), e)
  | .render => return (.lines (← e.render), e)
/-- The editor after commands that follow one another, and the answers to them. -/
def runAll (e : Editor) : List Command → Checked (List Answer × Editor)
  | [] => return ([], e)
  | c :: cs => do
    let (answer, e) ← run e c
    let (answers, e) ← runAll e cs
    return (answer :: answers, e)
end

end Editor

end Lumen
