namespace SegmentedCache.Text.Json

/-!
Reading JSON from a list of characters. Every reader gives the rest of the text behind what it read, and `none`
where the text is not of that form.
-/

def isBlank (c : Char) : Bool :=
  c == ' ' || c == '\t' || c == '\n' || c == '\r'

def skipBlanks (cs : List Char) : List Char :=
  cs.dropWhile isBlank

def skipLiteral (literal : List Char) (cs : List Char) : Option (List Char) :=
  if literal.isPrefixOf cs then some (cs.drop literal.length) else none

def hexValue? (c : Char) : Option Nat :=
  if c.isDigit then some (c.toNat - '0'.toNat)
  else if 'a' ≤ c ∧ c ≤ 'f' then some (c.toNat - 'a'.toNat + 10)
  else if 'A' ≤ c ∧ c ≤ 'F' then some (c.toNat - 'A'.toNat + 10)
  else none

def readHex : List Char → Option (Nat × List Char)
  | a :: b :: c :: d :: rest => do
      return (((← hexValue? a) * 16 + (← hexValue? b)) * 256 + (← hexValue? c) * 16 + (← hexValue? d), rest)
  | _ => none

def shortEscape? (c : Char) : Option Char :=
  match c with
  | '"' => some '"'
  | '\\' => some '\\'
  | '/' => some '/'
  | 'b' => some '\x08'
  | 'f' => some '\x0c'
  | 'n' => some '\n'
  | 'r' => some '\r'
  | 't' => some '\t'
  | _ => none

def isHighSurrogate (unit : Nat) : Bool := 0xD800 ≤ unit && unit < 0xDC00

def isLowSurrogate (unit : Nat) : Bool := 0xDC00 ≤ unit && unit < 0xE000

def readUnits (cs : List Char) : Option (Char × List Char) := do
  let (unit, rest) ← readHex cs
  if isLowSurrogate unit then failure
  else if isHighSurrogate unit then
    let (low, rest) ← readHex (← skipLiteral ['\\', 'u'] rest)
    if isLowSurrogate low then
      return (Char.ofNat (0x10000 + (unit - 0xD800) * 1024 + (low - 0xDC00)), rest)
    else failure
  else return (Char.ofNat unit, rest)

def readChars : Nat → List Char → Option (List Char × List Char)
  | 0, _ => none
  | _, [] => none
  | _, '"' :: rest => some ([], rest)
  | steps + 1, '\\' :: 'u' :: rest => do
      let (c, rest) ← readUnits rest
      let (cs, rest) ← readChars steps rest
      return (c :: cs, rest)
  | steps + 1, '\\' :: c :: rest => do
      let c ← shortEscape? c
      let (cs, rest) ← readChars steps rest
      return (c :: cs, rest)
  | steps + 1, c :: rest => do
      if c.toNat < 0x20 ∨ c = '\\' then
        failure
      let (cs, rest) ← readChars steps rest
      return (c :: cs, rest)

def readString (cs : List Char) : Option (String × List Char) :=
  match cs with
  | '"' :: rest => do
      let (cs, rest) ← readChars (rest.length + 1) rest
      return (String.ofList cs, rest)
  | _ => none

def skipChars : List Char → Option (List Char)
  | [] => none
  | '"' :: rest => some rest
  | '\\' :: 'u' :: a :: b :: c :: d :: rest =>
      if [a, b, c, d].all fun digit => (hexValue? digit).isSome then skipChars rest else none
  | '\\' :: c :: rest => if (shortEscape? c).isSome then skipChars rest else none
  | c :: rest => if c.toNat < 0x20 ∨ c = '\\' then none else skipChars rest

def skipString (cs : List Char) : Option (List Char) :=
  match cs with
  | '"' :: rest => skipChars rest
  | _ => none

def readDigits (cs : List Char) : Option (List Char × List Char) :=
  match cs.takeWhile Char.isDigit with
  | [] => none
  | digits => some (digits, cs.dropWhile Char.isDigit)

def readInteger (cs : List Char) : Option (List Char × List Char) := do
  let (digits, rest) ← readDigits cs
  if digits.head? = some '0' ∧ 1 < digits.length then failure else return (digits, rest)

def skipExponent (cs : List Char) : Option (List Char) :=
  match cs with
  | e :: rest =>
      if e = 'e' ∨ e = 'E' then
        match rest with
        | sign :: digits =>
            (readDigits (if sign = '+' ∨ sign = '-' then digits else rest)).map (·.2)
        | [] => none
      else some cs
  | [] => some cs

def skipFraction (cs : List Char) : Option (List Char) :=
  match cs with
  | '.' :: rest => do
      let (_, rest) ← readDigits rest
      skipExponent rest
  | _ => skipExponent cs

def skipNumber (cs : List Char) : Option (List Char) := do
  let (_, rest) ← readInteger (match cs with
    | '-' :: rest => rest
    | _ => cs)
  skipFraction rest

def readNat (cs : List Char) : Option (Nat × List Char) := do
  let (digits, rest) ← readInteger cs
  match rest with
  | '.' :: _ | 'e' :: _ | 'E' :: _ => failure
  | _ => return (digits.foldl (fun n c => n * 10 + (c.toNat - '0'.toNat)) 0, rest)

mutual

def skipValue : Nat → List Char → Option (List Char)
  | 0, _ => none
  | steps + 1, cs =>
      match skipBlanks cs with
      | '{' :: rest =>
          match skipBlanks rest with
          | '}' :: rest => some rest
          | rest => skipMembers steps rest
      | '[' :: rest =>
          match skipBlanks rest with
          | ']' :: rest => some rest
          | rest => skipItems steps rest
      | '"' :: rest => skipChars rest
      | 'n' :: rest => skipLiteral ['u', 'l', 'l'] rest
      | 't' :: rest => skipLiteral ['r', 'u', 'e'] rest
      | 'f' :: rest => skipLiteral ['a', 'l', 's', 'e'] rest
      | rest => skipNumber rest

def skipMembers : Nat → List Char → Option (List Char)
  | 0, _ => none
  | steps + 1, cs => do
      match skipBlanks (← skipString (skipBlanks cs)) with
      | ':' :: rest =>
          match skipBlanks (← skipValue steps rest) with
          | ',' :: rest => skipMembers steps rest
          | '}' :: rest => some rest
          | _ => none
      | _ => none

def skipItems : Nat → List Char → Option (List Char)
  | 0, _ => none
  | steps + 1, cs => do
      match skipBlanks (← skipValue steps cs) with
      | ',' :: rest => skipItems steps rest
      | ']' :: rest => some rest
      | _ => none

end

end SegmentedCache.Text.Json
