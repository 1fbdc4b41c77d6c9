import PropertyBinding.Text.HiddenTable

/-!
# Texts in quotation marks

A text is quoted for messages between quotation marks.  A backslash stands before
a quotation mark and a backslash, the common control characters have short
escapes, and a character that cannot be shown is given by its code point.
-/

namespace PropertyBinding
namespace Text

/-- The form of a character inside quotation marks. -/
def escapeChar (c : Char) : List Char :=
  match c with
  | '\x00' => ['\\', '0']
  | '\t' => ['\\', 't']
  | '\r' => ['\\', 'r']
  | '\n' => ['\\', 'n']
  | '\\' => ['\\', '\\']
  | '"' => ['\\', '"']
  | c =>
    if isHidden c then ['\\', 'u', '\x7b'] ++ Nat.toDigits 16 c.toNat ++ ['\x7d'] else [c]

def quoted (s : String) : String :=
  String.ofList ('"' :: s.toList.flatMap escapeChar ++ ['"'])

end Text
end PropertyBinding
