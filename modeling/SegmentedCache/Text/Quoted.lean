import SegmentedCache.Text.Printable
import SegmentedCache.Text.Combining

namespace SegmentedCache.Text

/-!
Quoted text. A character stands for itself unless it would be misread between the quotes: then it is written as
one of the short escapes, or by its code point.
-/

def codePoint (c : Char) : String :=
  "\\u\x7b" ++ String.ofList (Nat.toDigits 16 c.toNat) ++ "\x7d"

def escape (quotes : List Char) (exposed : Bool) (c : Char) : String :=
  match c with
  | '\x00' => "\\0"
  | '\t' => "\\t"
  | '\r' => "\\r"
  | '\n' => "\\n"
  | '\\' => "\\\\"
  | c =>
      if quotes.contains c then "\\" ++ c.toString
      else if (exposed && isCombining c) || !isPrintable c then codePoint c
      else c.toString

/-- The text between double quotes. No combining character may join its neighbour. -/
def quoted (s : String) : String :=
  "\"" ++ String.join (s.toList.map (escape ['"'] true)) ++ "\""

def quotedLoosely (s : String) : String :=
  "\"" ++ String.join (s.toList.mapIdx fun i c => escape ['"', '\''] (i == 0) c) ++ "\""

end SegmentedCache.Text
