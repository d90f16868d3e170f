namespace SegmentedCache

/-!
Hash functions for texts, of which a scenario chooses one.
-/

inductive Hashing where
  | fnv
  /-- A key of digits hashes to its number, if that fits in 64 bits. Any other is hashed as usual. -/
  | num
  | zero

namespace Hashing

def fnv1a (bytes : List UInt8) : UInt64 :=
  bytes.foldl (fun hash byte => (hash ^^^ byte.toUInt64) * 0x100000001b3) 0xcbf29ce484222325

def digits? (key : String) : Option UInt64 :=
  let cs := key.toList
  if cs.isEmpty || !cs.all Char.isDigit then none
  else
    let n := cs.foldl (fun n c => n * 10 + (c.toNat - '0'.toNat)) 0
    if n < UInt64.size then some (UInt64.ofNat n) else none

def hash (hashing : Hashing) (key : String) : UInt64 :=
  match hashing with
  | fnv => fnv1a key.toUTF8.toList
  | num => (digits? key).getD (fnv1a key.toUTF8.toList)
  | zero => 0

end Hashing
end SegmentedCache
