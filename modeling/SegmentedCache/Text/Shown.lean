namespace SegmentedCache.Text

/-!
Structured values as they are shown to someone debugging: on one line, or spread over one line per component.
-/

inductive Shown where
  | atom (text : String)
  | tagged (name : String) (items : List Shown)
  | record (name : String) (fields : List (String × Shown))
  | list (items : List Shown)

namespace Shown

def optional : Option Shown → Shown
  | none => atom "None"
  | some value => tagged "Some" [value]

def flag (b : Bool) : Shown :=
  atom (if b then "true" else "false")

def number (n : Nat) : Shown :=
  atom (toString n)

mutual

def inline : Shown → String
  | atom text => text
  | tagged name items => name ++ "(" ++ ", ".intercalate (inlineItems items) ++ ")"
  | record name [] => name
  | record name fields => name ++ " \x7b " ++ ", ".intercalate (inlineFields fields) ++ " \x7d"
  | list items => "[" ++ ", ".intercalate (inlineItems items) ++ "]"

def inlineItems : List Shown → List String
  | [] => []
  | item :: rest => inline item :: inlineItems rest

def inlineFields : List (String × Shown) → List String
  | [] => []
  | (name, value) :: rest => (name ++ ": " ++ inline value) :: inlineFields rest

end

def margin (depth : Nat) : String :=
  String.ofList (List.replicate (4 * depth) ' ')

mutual

/-- The value with each component on a line of its own, ended by a comma and set in one level. -/
def block (depth : Nat) : Shown → String
  | atom text => text
  | tagged name items => name ++ "(\n" ++ blockItems (depth + 1) items ++ margin depth ++ ")"
  | record name [] => name
  | record name fields => name ++ " \x7b\n" ++ blockFields (depth + 1) fields ++ margin depth ++ "\x7d"
  | list [] => "[]"
  | list items => "[\n" ++ blockItems (depth + 1) items ++ margin depth ++ "]"

def blockItems (depth : Nat) : List Shown → String
  | [] => ""
  | item :: rest => margin depth ++ block depth item ++ ",\n" ++ blockItems depth rest

def blockFields (depth : Nat) : List (String × Shown) → String
  | [] => ""
  | (name, value) :: rest =>
      margin depth ++ name ++ ": " ++ block depth value ++ ",\n" ++ blockFields depth rest

end

end Shown
end SegmentedCache.Text
