import InterestDesk.Text.Unseen
/-!
# Quoted — a text shown in quotes

Quotes, backslashes and the common control characters are written with a backslash, and every other character that
has no mark of its own as its code.
-/
namespace InterestDesk
namespace Text

/-- A character as it is shown in quotes. -/
def showChar (c : Char) : List Char :=
  match c with
  | '\x00' => ['\\', '0']
  | '\t' => ['\\', 't']
  | '\n' => ['\\', 'n']
  | '\r' => ['\\', 'r']
  | '"' => ['\\', '"']
  | '\\' => ['\\', '\\']
  | c => if isUnseen c then ['\\', 'u', '\x7b'] ++ Nat.toDigits 16 c.toNat ++ ['\x7d'] else [c]

def quoted (text : String) : String :=
  String.ofList ('"' :: text.toList.flatMap showChar ++ ['"'])

end Text
end InterestDesk
