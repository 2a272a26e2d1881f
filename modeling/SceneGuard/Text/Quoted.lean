import SceneGuard.Text.Shown

/-!
# Quoted text

Text in double quotes, with escapes for quotes, backslashes and all characters that do not show.
-/

namespace SceneGuard

namespace Quoted

/-- The form of a character between quotes. -/
def escape (c : Char) : List Char :=
  match c with
  | '"' => ['\\', '"']
  | '\\' => ['\\', '\\']
  | '\n' => ['\\', 'n']
  | '\r' => ['\\', 'r']
  | '\t' => ['\\', 't']
  | '\x00' => ['\\', '0']
  | c => if Shown.isShown c then [c] else "\\u\x7b".toList ++ Nat.toDigits 16 c.toNat ++ ['}']

/-- A text in quotes. -/
def encode (s : String) : String := "\"" ++ String.ofList (s.toList.flatMap escape) ++ "\""

/-- A list of texts, each in quotes. -/
def list (ss : List String) : String := "[" ++ ", ".intercalate (ss.map encode) ++ "]"

end Quoted

end SceneGuard
