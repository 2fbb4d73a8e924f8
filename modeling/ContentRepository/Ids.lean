/-!
# Ids for new documents

An `IdSource`, or `IdGenerator`, draws ids one after another from an endless sequence. The
properties of a repository that need fresh ids ask no more of the sequence than that it repeats
nothing.

* **`IdSource.sequential`** counts: `UUID_0`, `UUID_1` and so on.
* **`IdSource.random`** scatters ids of the shape of random UUIDs, from a seed.
-/

namespace ContentRepository

/-- An endless sequence of ids, and how many of them are drawn. -/
structure IdSource where
  name : Nat → String
  drawn : Nat

namespace IdSource

/-- The id that is drawn after `n` others. -/
def peek (s : IdSource) (n : Nat) : String := s.name (s.drawn + n)

/-- The source after `n` more ids were drawn. -/
def skip (s : IdSource) (n : Nat) : IdSource := { s with drawn := s.drawn + n }

/-- The next `n` ids. -/
def take (s : IdSource) (n : Nat) : List String := (List.range n).map s.peek

/-- Ids that count up from zero. -/
def sequential : IdSource := ⟨fun n => "UUID_" ++ toString n, 0⟩

/-- Mixes the bits of a word so that every bit of the result depends on all of them. -/
def mix (word : UInt64) : UInt64 :=
  let word := (word ^^^ (word >>> 30)) * 0xbf58476d1ce4e5b9
  let word := (word ^^^ (word >>> 27)) * 0x94d049bb133111eb
  word ^^^ (word >>> 31)

/-- A word in 16 hexadecimal digits. -/
def hexWord (word : UInt64) : List Char :=
  let digits := Nat.toDigits 16 word.toNat
  List.replicate (16 - digits.length) '0' ++ digits

/-- The shape of a random UUID: the version digit is 4, and the digit of the variant is one of 8, 9,
a and b. -/
def uuid (high low : UInt64) : String :=
  let high := hexWord ((high &&& 0xffffffffffff0fff) ||| 0x4000)
  let low := hexWord ((low &&& 0x3fffffffffffffff) ||| 0x8000000000000000)
  String.ofList <|
    high.take 8 ++ '-' :: (high.drop 8).take 4 ++ '-' :: high.drop 12 ++
    '-' :: low.take 4 ++ '-' :: low.drop 4

/-- Ids that look random. -/
def random (seed : UInt64) : IdSource :=
  let step : UInt64 := 0x9e3779b97f4a7c15
  ⟨fun n =>
    let position := seed + step * UInt64.ofNat (2 * n)
    uuid (mix position) (mix (position + step)), 0⟩

end IdSource

end ContentRepository
