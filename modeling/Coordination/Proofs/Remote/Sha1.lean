import Coordination.Digest.Sha256

/-! # SHA-1

The older digest that store servers know scripts by. Blocks are padded as for SHA-256, and each is mixed into five words
of state in eighty rounds.
-/
namespace Coordination.Digest.Sha1
open Sha256 (bytesOfWord hexOfByte padding rotateRight wordsOfBytes)

structure State where
  a : UInt32
  b : UInt32
  c : UInt32
  d : UInt32
  e : UInt32
deriving DecidableEq, Repr

namespace State

def initial : State where
  a := 0x67452301
  b := 0xefcdab89
  c := 0x98badcfe
  d := 0x10325476
  e := 0xc3d2e1f0

def add (s t : State) : State := ⟨s.a + t.a, s.b + t.b, s.c + t.c, s.d + t.d, s.e + t.e⟩

def words (s : State) : List UInt32 := [s.a, s.b, s.c, s.d, s.e]

end State

/-- What the rounds of each quarter make of three words, with their constants. -/
def quarters : List ((UInt32 → UInt32 → UInt32 → UInt32) × UInt32) := [
  (fun b c d => (b &&& c) ||| (~~~b &&& d), 0x5a827999),
  (fun b c d => b ^^^ c ^^^ d, 0x6ed9eba1),
  (fun b c d => (b &&& c) ||| (b &&& d) ||| (c &&& d), 0x8f1bbcdc),
  (fun b c d => b ^^^ c ^^^ d, 0xca62c1d6)]

def round (s : State) (word : UInt32) (mix : UInt32 → UInt32 → UInt32 → UInt32) (constant : UInt32) : State :=
  ⟨rotateRight s.a 27 + mix s.b s.c s.d + s.e + constant + word, s.a, rotateRight s.b 2, s.c, s.d⟩

def nextWord (window : List UInt32) : UInt32 :=
  rotateRight (window.getD 13 0 ^^^ window.getD 8 0 ^^^ window.getD 2 0 ^^^ window.getD 0 0) 31

/-- The rounds that are left; the window holds the next sixteen words. -/
def rounds : List ((UInt32 → UInt32 → UInt32 → UInt32) × UInt32) → List UInt32 → State → State
  | [], _, s => s
  | (mix, constant) :: rest, window, s =>
    rounds rest (window.drop 1 ++ [nextWord window]) (round s (window.getD 0 0) mix constant)

def absorb (s : State) (block : List UInt32) : State := s.add (rounds (quarters.flatMap (List.replicate 20)) block s)

/-- Mixes in block after block; the fuel is the number of words. -/
def absorbAll : Nat → List UInt32 → State → State
  | 0, _, s => s
  | fuel + 1, words, s => if words.isEmpty then s else absorbAll fuel (words.drop 16) (absorb s (words.take 16))

def digest (message : List UInt8) : List UInt8 :=
  let words := wordsOfBytes (message ++ padding message.length)
  (absorbAll words.length words .initial).words.flatMap bytesOfWord

def hexDigest (text : String) : String := String.ofList ((digest text.toUTF8.toList).flatMap hexOfByte)

end Coordination.Digest.Sha1
