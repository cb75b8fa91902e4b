/-!
# The sample document

The text that an editor starts with when none has been stored.
-/

namespace Lumen

def sampleLines : List String := [
  "// Caesar cipher: shift every letter of a message by a number of steps.",
  "// Edit anything below and watch the highlighting follow along.",
  "",
  "use std::collections::HashMap;",
  "",
  "const ALPHABET: &str = \"abcdefghijklmnopqrstuvwxyz\";",
  "",
  "/// Rotate an alphabet, e.g. \"abc..z\" by 1 gives \"bcd..za\"",
  "fn rotation(alphabet: &str, steps: usize) -> String \x7b",
  "    let steps = steps % alphabet.len();",
  "    format!(\"\x7b\x7d\x7b\x7d\", &alphabet[steps..], &alphabet[..steps])",
  "\x7d",
  "",
  "/// Map each letter of `keys` to the letter at the same place in `values`",
  "fn map_maker(keys: &str, values: &str) -> HashMap<char, char> \x7b",
  "    assert_eq!(keys.len(), values.len(), \"uneven lengths\");",
  "    let mut chart: HashMap<char, char> = keys.chars().zip(values.chars()).collect();",
  "    chart.insert(' ', ' ');",
  "    chart",
  "\x7d",
  "",
  "fn encoder(steps: usize) -> HashMap<char, char> \x7b",
  "    map_maker(ALPHABET, &rotation(ALPHABET, steps))",
  "\x7d",
  "",
  "fn decoder(steps: usize) -> HashMap<char, char> \x7b",
  "    map_maker(&rotation(ALPHABET, steps), ALPHABET)",
  "\x7d",
  "",
  "fn operate(message: &str, shift_map: &HashMap<char, char>) -> String \x7b",
  "    message",
  "        .chars()",
  "        .map(|c| *shift_map.get(&c).unwrap_or(&c))",
  "        .collect()",
  "\x7d",
  "",
  "fn main() \x7b",
  "    let message = \"the quick brown fox\".to_lowercase();",
  "    let steps = 3;",
  "",
  "    let shifted = operate(&message, &encoder(steps));",
  "    let restored = operate(&shifted, &decoder(steps));",
  "",
  "    println!(\"\x7bshifted\x7d\");",
  "    assert_eq!(restored, message);",
  "\x7d"]

def sampleSource : List Char := (String.join (sampleLines.map (· ++ "\n"))).toList

end Lumen
