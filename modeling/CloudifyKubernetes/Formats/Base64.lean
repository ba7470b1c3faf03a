import Mathlib.Data.List.Basic

namespace Formats

namespace Base64

inductive Fault
  | length (characters : Nat)
  | padding
  deriving DecidableEq, Repr

def sextet? (c : Char) : Option Nat :=
  if 'A' ≤ c ∧ c ≤ 'Z' then some (c.toNat - 65)
  else if 'a' ≤ c ∧ c ≤ 'z' then some (c.toNat - 71)
  else if '0' ≤ c ∧ c ≤ '9' then some (c.toNat + 4)
  else if c = '+' then some 62
  else if c = '/' then some 63
  else none

/-- The decoder between two characters: the place in the group of four, the bits that are left of
    the last character, the padding characters since, and how many bytes there are. -/
structure Progress where
  place : Nat
  left : Nat
  pads : Nat
  bytes : Nat

def start : Progress := ⟨0, 0, 0, 0⟩

def Progress.step (p : Progress) (x : Nat) : Option UInt8 × Progress :=
  match p.place with
  | 0 => (none, ⟨1, x, 0, p.bytes⟩)
  | 1 => (some (UInt8.ofNat (p.left * 4 + x / 16)), ⟨2, x % 16, 0, p.bytes + 1⟩)
  | 2 => (some (UInt8.ofNat (p.left * 16 + x / 4)), ⟨3, x % 4, 0, p.bytes + 1⟩)
  | _ => (some (UInt8.ofNat (p.left * 64 + x)), ⟨0, 0, 0, p.bytes + 1⟩)

/-- Characters outside of the alphabet are passed over, and so is padding in a wrong place. -/
def decodeFrom (p : Progress) : List Char → Except Fault (List UInt8)
  | [] =>
    if p.place = 0 then .ok []
    else if p.place = 1 then .error (.length (p.bytes / 3 * 4 + 1))
    else .error .padding
  | c :: rest =>
    if c = '=' then
      if 2 ≤ p.place then
        if 4 ≤ p.place + (p.pads + 1) then .ok [] else decodeFrom { p with pads := p.pads + 1 } rest
      else decodeFrom p rest
    else
      match sextet? c with
      | none => decodeFrom p rest
      | some x => (decodeFrom (p.step x).2 rest).map ((p.step x).1.toList ++ ·)

def decode (text : List Char) : Except Fault (List UInt8) := decodeFrom start text

end Base64

end Formats
