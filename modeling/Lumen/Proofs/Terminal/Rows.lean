import Lumen.Proofs.Checked
import Lumen.Proofs.Config.Bounds
import Lumen.Terminal.Run

/-!
# The number of rows that can be seen

Whatever the command line and the configuration say, the number of rows that can be seen is a size
(`visibleRows_le`): a number that no size can hold is neither an argument (`sized_of_ofWords`) nor a
setting (`Config.bounded_load`).
-/

namespace Lumen

/-! ## Arguments -/

namespace Terminal

theorem addDigits_le {n m : Nat} {t : Text} (hn : n ≤ Size.largest) (h : addDigits n t = .ok m) :
    m ≤ Size.largest := by
  induction t generalizing n with
  | nil => exact Except.ok.inj h ▸ hn
  | cons c cs ih =>
      rw [addDigits] at h
      split at h
      · cases h
      · simp only at h
        split at h
        · cases h
        · next hle => exact ih (Nat.le_of_not_lt hle) h

theorem number_le {t : Text} {n : Nat} (h : number t = .ok n) : n ≤ Size.largest := by
  rw [number.eq_def] at h
  split at h
  · cases h
  · cases h
  · exact addDigits_le (Nat.zero_le _) h
  · exact addDigits_le (Nat.zero_le _) h

/-- Whether the number of rows is a size, if there is one. -/
def Arguments.Sized (args : Arguments) : Prop := ∀ n, args.rows = some n → n ≤ Size.largest

theorem Arguments.Sized.add {args args' : Arguments} (hargs : args.Sized) {a : Argument}
    {value : Option Text} (h : args.add a value = .ok args') : args'.Sized := by
  cases a with
  | rows =>
      cases value with
      | none => cases h
      | some t =>
          rw [Arguments.add] at h
          split at h
          · cases h
          · split at h
            · next n hn =>
                obtain rfl := Except.ok.inj h
                intro m hm
                exact Option.some.inj hm ▸ number_le hn
            · cases h
  | reset | noPersist =>
      rw [Arguments.add] at h
      split at h
      · cases h
      · exact Except.ok.inj h ▸ hargs
  | config =>
      cases value with
      | none => cases h
      | some t =>
          rw [Arguments.add] at h
          split at h
          · cases h
          · split at h
            · cases h
            · exact Except.ok.inj h ▸ hargs
  | help | version =>
      rw [Arguments.add] at h
      exact Except.ok.inj h ▸ hargs

theorem Arguments.Sized.settle {args args' : Arguments} (hargs : args.Sized) {pending : Pending}
    (h : Terminal.settle args pending = .ok args') : args'.Sized := by
  cases pending with
  | none => exact Except.ok.inj h ▸ hargs
  | some argument => exact hargs.add h

theorem Arguments.Sized.read {args args' : Arguments} (hargs : args.Sized) {pending : Pending}
    {words : List Text} (h : Terminal.read args pending words = .ok (.run args')) :
    args'.Sized := by
  -- where the words end, what has been read so far is the request
  have hend : ∀ {args : Arguments} {pending : Pending}, args.Sized →
      (do return Request.run (← Terminal.settle args pending) : Except ArgumentError Request) =
        .ok (.run args') → args'.Sized := by
    intro args pending hargs h
    obtain ⟨args₁, hsettle, hrun⟩ := Checked.bind_eq_ok.mp h
    obtain rfl := Request.run.inj (Except.ok.inj hrun)
    exact hargs.settle hsettle
  -- each word adds an argument, gives a pending one its value or ends the reading
  induction words generalizing args pending with
  | nil => exact hend hargs h
  | cons word words ih =>
      rw [Terminal.read.eq_def] at h
      simp only at h
      split at h
      · split at h
        · exact hend hargs h
        · cases h
      · split at h
        · cases h
        · obtain ⟨args₁, -, hhelp⟩ := Checked.bind_eq_ok.mp h
          cases hhelp
        · obtain ⟨args₁, -, hversion⟩ := Checked.bind_eq_ok.mp h
          cases hversion
        · split at h
          · obtain ⟨args₁, hsettle, hrest⟩ := Checked.bind_eq_ok.mp h
            obtain ⟨args₂, hadd, hread⟩ := Checked.bind_eq_ok.mp hrest
            exact ih ((hargs.settle hsettle).add hadd) hread
          · cases h
        · obtain ⟨args₁, hsettle, hrest⟩ := Checked.bind_eq_ok.mp h
          split at hrest
          · exact ih (hargs.settle hsettle) hrest
          · obtain ⟨args₂, hadd, hread⟩ := Checked.bind_eq_ok.mp hrest
            exact ih ((hargs.settle hsettle).add hadd) hread
      · split at h
        · obtain ⟨args₁, -, hhelp⟩ := Checked.bind_eq_ok.mp h
          cases hhelp
        · split at h
          · obtain ⟨args₁, -, hversion⟩ := Checked.bind_eq_ok.mp h
            cases hversion
          · cases h
      · split at h
        · exact ih hargs h
        · cases h

/-- The number of rows among the arguments is a size. -/
theorem sized_of_ofWords {words : List Text} {args : Arguments}
    (h : Request.ofWords words = .ok (.run args)) : args.Sized := by
  have hnone : Arguments.Sized {} := fun n hn => by cases hn
  exact hnone.read h

/-- The number of rows that can be seen is a size. -/
theorem visibleRows_le {words : List Text} {args : Arguments}
    (h : Request.ofWords words = .ok (.run args)) (home : Home) (disk : Disk) :
    max (visibleRows args (configOf args home disk)) 1 ≤ Size.largest := by
  have hconfig : (configOf args home disk).rows < Config.bound :=
    (Config.bounded_load disk _).rows
  have hone : 1 ≤ Size.largest := by decide
  have hbound : Config.bound = Size.largest + 1 := by decide
  have hrows : args.rows.getD (configOf args home disk).rows ≤ Size.largest := by
    cases hrows : args.rows with
    | none =>
        rw [Option.getD_none]
        omega
    | some n => exact sized_of_ofWords h n hrows
  rw [visibleRows]
  omega

end Terminal

end Lumen
