import Classpath.Zip.Bits

/-!
Canonical prefix codes. A code is given by the length of each symbol's word; the words of one
length are consecutive numbers in the order of the symbols, and shorter words come first.
-/

set_option autoImplicit false

namespace Classpath.Zip

structure PrefixCode where
  /-- How many words there are of each length from one to fifteen. -/
  counts : List Nat
  /-- The symbols that have a word, by its length and then in their own order. -/
  symbols : Array Nat
  deriving DecidableEq, Repr

namespace PrefixCode

def maxLength : Nat := 15

/-- Twice the number of words of the greatest length that the words of the given counts begin. -/
def filled (counts : List Nat) : Nat :=
  counts.foldl (fun total count => 2 * (total + count)) 0

/-- The code of the lengths. Words must leave no gap and not collide, unless there is none or only
one, of a single bit. -/
def ofLengths? (lengths : List Nat) : Option PrefixCode :=
  let wordLengths := List.range' 1 maxLength
  let counts := wordLengths.map fun length => lengths.count length
  let symbols := wordLengths.flatMap fun length =>
    (lengths.zipIdx.filter fun entry => entry.1 = length).map (·.2)
  let isLone := symbols.length ≤ 1 ∧ ∀ length ∈ lengths, length ≤ 1
  if filled counts = 1 <<< (maxLength + 1) ∨ isLone then some ⟨counts, symbols.toArray⟩ else none

/-- Extends `word` bit by bit. At each length, `first` is the first word of that length and
`index` the place of its symbol. -/
def decodeFrom (symbols : Array Nat) : List Nat → Nat → Nat → Nat → BitRead Nat
  | [], _, _, _ => throw .corrupt
  | count :: counts, word, first, index => do
      let bit ← BitRead.bit
      let word := 2 * word + bit.toNat
      if word < first + count then
        match symbols[index + (word - first)]? with
        | some symbol => return symbol
        | none => throw .corrupt
      else
        decodeFrom symbols counts word (2 * (first + count)) (index + count)

/-- The symbol whose word comes next. -/
def decode (code : PrefixCode) : BitRead Nat := decodeFrom code.symbols code.counts 0 0 0

end PrefixCode

end Classpath.Zip
