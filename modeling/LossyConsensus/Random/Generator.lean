/-
# Reproducible random draws

A permuted congruential generator with 128 bits of state and 64-bit outputs.
Its starting state comes from a list of seeds by hashing their 32-bit words
into a pool of four words and drawing eight words from the pool.

A draw is an integer below `2 ^ 53`; it stands for the real that is this many
units of `2 ^ -53`, so a draw decides a comparison with a probability in any
number system that has these reals.  A generator is a value: equal seeds give
equal draws, and nothing else influences them.
-/

import LossyConsensus.Word

namespace LossyConsensus.Random

-- Powers are those of the core library, whatever algebra is imported beside it.
attribute [local instance (2000)] instPowNat

/-- The state of a generator and its odd increment, both below `2 ^ 128`. -/
structure Generator where
  state : Nat
  increment : Nat
  deriving Repr, DecidableEq

/-- Why a generator cannot be made. -/
inductive SeedError
  | negative
  deriving Repr, DecidableEq

/-- The text of a seed error. -/
def SeedError.message : SeedError → String
  | .negative => "expected non-negative integer"

/-- Why a number of draws or flags is refused: it is no signed word, or it is
negative, or so many of them take more bytes than a signed word counts. -/
inductive CountError
  | noWord
  | negative
  | tooManyBytes
  deriving Repr, DecidableEq

/-- The text of a refused number. -/
def CountError.message : CountError → String
  | .noWord => "Maximum allowed dimension exceeded"
  | .negative => "negative dimensions are not allowed"
  | .tooManyBytes =>
      "array is too big; \x60arr.size * arr.dtype.itemsize\x60 is larger than the maximum " ++
        "possible size."

/-- What speaks against a number of items that take some bytes each. -/
def countError? (bytes : Nat) (count : Int) : Option CountError :=
  if !isSignedWord count then some .noWord
  else if count < 0 then some .negative
  else if !isSignedWord (count * bytes) then some .tooManyBytes
  else none

/-- The bytes that a draw takes. -/
def drawBytes : Nat := 8

/-- The 32-bit words of a natural number, the least significant first; zero is
one word. -/
def words (n : Nat) : List Nat :=
  if n < 2 ^ (32 : Nat) then [n] else n % 2 ^ (32 : Nat) :: words (n / 2 ^ (32 : Nat))
termination_by n
decreasing_by omega

/-- Fold the upper half of a 32-bit word onto the lower. -/
def foldWord (w : Nat) : Nat :=
  w ^^^ (w >>> 16)

/-- Hash one word with a running multiplier; the multiplier advances by
`step`. -/
def hashWord (step multiplier word : Nat) : Nat × Nat :=
  let advanced := multiplier * step % 2 ^ (32 : Nat)
  (foldWord ((word ^^^ multiplier) * advanced % 2 ^ (32 : Nat)), advanced)

/-- Combine a pool word with a hashed word. -/
def mixWords (x y : Nat) : Nat :=
  foldWord ((0xca01f9dd * x + (2 ^ (64 : Nat) - 0x4973f715 * y)) % 2 ^ (32 : Nat))

/-- A pool of four words with the running multiplier of its hash. -/
structure Pool where
  entries : List Nat
  multiplier : Nat

/-- The step of the multiplier while words enter the pool. -/
def poolStep : Nat := 0x931e8875

/-- Hash a word into the pool entry `target`. -/
def Pool.absorb (pool : Pool) (target word : Nat) : Pool :=
  let (hashed, multiplier) := hashWord poolStep pool.multiplier word
  { entries := pool.entries.modify target fun entry => mixWords entry hashed, multiplier }

/-- The pool whose entries are the first four words of the entropy, missing
words counting as zero. -/
def Pool.start (entropy : List Nat) : Pool :=
  (List.range 4).foldl (fun pool i =>
    let (hashed, multiplier) := hashWord poolStep pool.multiplier (entropy.getD i 0)
    { entries := pool.entries ++ [hashed], multiplier }) ⟨[], 0x43b0d7e5⟩

/-- Mix every entry of the pool into every other one. -/
def Pool.stir (pool : Pool) : Pool :=
  (List.range 4).foldl (fun pool source =>
    (List.range 4).foldl (fun pool target =>
      if source == target then pool
      else pool.absorb target (pool.entries.getD source 0)) pool) pool

/-- Mix further words of the entropy into every entry. -/
def Pool.extend (pool : Pool) (entropy : List Nat) : Pool :=
  entropy.foldl (fun pool word =>
    (List.range 4).foldl (fun pool target => pool.absorb target word) pool) pool

/-- The pool of an entropy of any length. -/
def Pool.ofEntropy (entropy : List Nat) : Pool :=
  ((Pool.start entropy).stir).extend (entropy.drop 4)

/-- The eight words that a pool yields. -/
def Pool.yield (pool : Pool) : List Nat :=
  ((List.range 8).foldl (fun (drawn, multiplier) i =>
    let (word, multiplier) := hashWord 0x58f38ded multiplier (pool.entries.getD (i % 4) 0)
    (drawn ++ [word], multiplier)) ([], 0x8b51f9dd)).1

namespace Generator

/-- The multiplier of the congruential step. -/
def stepMultiplier : Nat := 0x2360ed051fc65da44385df649fccf645

/-- One congruential step. -/
def advance (g : Generator) : Generator :=
  { g with state := (g.state * stepMultiplier + g.increment) % 2 ^ (128 : Nat) }

/-- The generator of a list of entropy words. -/
def ofEntropy (entropy : List Nat) : Generator :=
  let drawn := (Pool.ofEntropy entropy).yield
  let long (k : Nat) : Nat := drawn.getD (2 * k) 0 + 2 ^ (32 : Nat) * drawn.getD (2 * k + 1) 0
  let start := long 0 * 2 ^ (64 : Nat) + long 1
  let sequence := long 2 * 2 ^ (64 : Nat) + long 3
  let fresh : Generator := ⟨0, (2 * sequence + 1) % 2 ^ (128 : Nat)⟩
  let once := fresh.advance
  advance { once with state := (once.state + start) % 2 ^ (128 : Nat) }

/-- The generator of a list of seeds; a negative seed makes none. -/
def ofSeeds (seeds : List Int) : Except SeedError Generator :=
  if seeds.any (· < 0) then .error .negative
  else .ok (ofEntropy (seeds.flatMap fun seed => words seed.toNat))

/-- The generator of one seed. -/
def ofSeed (seed : Int) : Except SeedError Generator :=
  ofSeeds [seed]

/-- Rotate a 64-bit word to the right. -/
def rotateRight (word count : Nat) : Nat :=
  (word >>> count) ||| ((word <<< ((64 - count) % 64)) % 2 ^ (64 : Nat))

/-- The next 64-bit output. -/
def next (g : Generator) : Nat × Generator :=
  let g := g.advance
  (rotateRight ((g.state >>> 64) ^^^ (g.state % 2 ^ (64 : Nat))) (g.state >>> 122), g)

/-- The next draw: the upper 53 bits of the next output. -/
def draw (g : Generator) : Nat × Generator :=
  let (word, g) := g.next
  (word >>> 11, g)

/-- The next `count` draws. -/
def draws : Nat → Generator → List Nat × Generator
  | 0, g => ([], g)
  | count + 1, g =>
      let (first, g) := g.draw
      let (rest, g) := draws count g
      (first :: rest, g)

/-- The next draws, as many as an integer says. -/
def drawsOf (count : Int) (g : Generator) : Except CountError (List Nat × Generator) :=
  match countError? drawBytes count with
  | some error => .error error
  | none => .ok (draws count.toNat g)

end Generator

end LossyConsensus.Random
