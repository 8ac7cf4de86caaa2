import Mathlib.Algebra.Order.Ring.Nat
import Mathlib.Data.List.Basic

/-! # Parsers over byte strings

A parser reads a value off the front of a byte string and leaves the rest, or
fails.  `Reads p bytes a` says that `p` reads exactly `bytes` as `a`, whatever
follows; it composes along `bind` (`Reads.bind`), which is how the round trip of a
record follows from the round trips of its fields.  `Spells p R` says the converse: what
`p` accepts starts with bytes that it reads exactly, and these have the property `R`.
-/
namespace ByteParser

/-- A parser: the value read and the bytes left, or failure. -/
abbrev Parser (α : Type) := StateT (List UInt8) Option α

variable {α β : Type}

/-- One byte; fails at the end of the string. -/
def readU8 : Parser UInt8
  | [] => none
  | b :: rest => some (b, rest)

/-- The next byte, which stays; fails at the end of the string. -/
def peekU8 : Parser UInt8
  | [] => none
  | b :: rest => some (b, b :: rest)

/-- The next `n` bytes; fails when fewer are left. -/
def readBytes : Nat → Parser (List UInt8)
  | 0 => pure []
  | n + 1 => do
    let b ← readU8
    let bs ← readBytes n
    pure (b :: bs)

/-- `p` reads exactly `bytes`, as `a`, in front of any trailing bytes. -/
def Reads (p : Parser α) (bytes : List UInt8) (a : α) : Prop :=
  ∀ rest, p (bytes ++ rest) = some (a, rest)

theorem Reads.pure (a : α) : Reads (pure a) [] a := fun _ => rfl

theorem Reads.bind {p : Parser α} {f : α → Parser β} {xs ys : List UInt8} {a : α} {b : β}
    (hp : Reads p xs a) (hf : Reads (f a) ys b) : Reads (p >>= f) (xs ++ ys) b := by
  intro rest
  show (p (xs ++ ys ++ rest)).bind (fun r => f r.1 r.2) = some (b, rest)
  rw [List.append_assoc, hp (ys ++ rest)]
  exact hf rest

/-- The last step of a `do` block: nothing is left to read. -/
theorem Reads.bind_pure {p : Parser α} {f : α → β} {xs : List UInt8} {a : α}
    (hp : Reads p xs a) : Reads (p >>= fun x => Pure.pure (f x)) xs (f a) := by
  have h := hp.bind (f := fun x => Pure.pure (f x)) (Reads.pure (f a))
  rwa [List.append_nil] at h

/-- `p` fails on `bytes`, whatever follows. -/
def Rejects (p : Parser α) (bytes : List UInt8) : Prop := ∀ rest, p (bytes ++ rest) = none

theorem Reads.bind_rejects {p : Parser α} {f : α → Parser β} {xs ys : List UInt8} {a : α}
    (hp : Reads p xs a) (hf : Rejects (f a) ys) : Rejects (p >>= f) (xs ++ ys) := by
  intro rest
  show (p (xs ++ ys ++ rest)).bind (fun r => f r.1 r.2) = none
  rw [List.append_assoc, hp (ys ++ rest)]
  exact hf rest

theorem Rejects.bind {p : Parser α} {f : α → Parser β} {xs ys : List UInt8} (hp : Rejects p xs) :
    Rejects (p >>= f) (xs ++ ys) := by
  intro rest
  show (p (xs ++ ys ++ rest)).bind (fun r => f r.1 r.2) = none
  rw [List.append_assoc, hp (ys ++ rest)]
  rfl

theorem reads_readU8 (b : UInt8) : Reads readU8 [b] b := fun _ => rfl

/-- Looking at the next byte reads nothing. -/
theorem Reads.peekU8_bind {f : UInt8 → Parser β} {x : UInt8} {xs : List UInt8} {b : β}
    (hf : Reads (f x) (x :: xs) b) : Reads (peekU8 >>= f) (x :: xs) b := hf

theorem reads_readBytes (bs : List UInt8) : Reads (readBytes bs.length) bs bs := by
  induction bs with
  | nil => exact Reads.pure []
  | cons b bs ih => exact (reads_readU8 b).bind ih.bind_pure

theorem readBytes_of_lt {n : ℕ} {xs : List UInt8} (h : xs.length < n) : readBytes n xs = none := by
  induction n generalizing xs with
  | zero => exact absurd h (Nat.not_lt_zero _)
  | succ n ih =>
    cases xs with
    | nil => rfl
    | cons b xs =>
      have hrest := ih (Nat.lt_of_succ_lt_succ h)
      show ((readBytes n) xs).bind _ = none
      rw [hrest]
      rfl

/-! ## What a parser reads -/

/-- A string starts with at most one reading. -/
theorem Reads.eq_of_append {p : Parser α} {xs ys us vs : List UInt8} {a b : α}
    (hx : Reads p xs a) (hy : Reads p ys b) (h : xs ++ us = ys ++ vs) : xs = ys := by
  have hrest : some (a, us) = some (b, vs) := by rw [← hx us, ← hy vs, h]
  cases hrest
  exact List.append_cancel_right h

/-- Whatever `p` reads, it reads off the front of the string, and `R` relates the bytes to the
value. -/
def Spells (p : Parser α) (R : List UInt8 → α → Prop) : Prop :=
  ∀ xs a rest, p xs = some (a, rest) → ∃ ys, xs = ys ++ rest ∧ Reads p ys a ∧ R ys a

theorem Spells.pure {R : List UInt8 → α → Prop} {a : α} (h : R [] a) :
    Spells (Pure.pure a) R := by
  rintro xs b rest hread
  cases hread
  exact ⟨[], rfl, Reads.pure a, h⟩

/-- What `p` read is at hand when the rest of the `do` block is looked at. -/
theorem Spells.bind {p : Parser α} {f : α → Parser β} {R : List UInt8 → α → Prop}
    {S : List UInt8 → β → Prop} (hp : Spells p R)
    (hf : ∀ a ys, R ys a → Spells (f a) fun zs b => S (ys ++ zs) b) : Spells (p >>= f) S := by
  intro xs b rest hread
  obtain ⟨⟨a, mid⟩, hfirst, hsecond⟩ := Option.bind_eq_some_iff.mp hread
  obtain ⟨ys, rfl, hys, hR⟩ := hp xs a mid hfirst
  obtain ⟨zs, rfl, hzs, hS⟩ := hf a ys hR mid b rest hsecond
  exact ⟨ys ++ zs, (List.append_assoc ys zs rest).symm, hys.bind hzs, hS⟩

/-- What is read exactly is read off the front. -/
theorem Spells.of_reads {p : Parser α} {R : List UInt8 → α → Prop} {ys : List UInt8} {a : α}
    (hp : Spells p R) (h : Reads p ys a) : R ys a := by
  obtain ⟨zs, hys, -, hR⟩ := hp (ys ++ []) a [] (h [])
  rwa [List.append_cancel_right hys]

theorem spells_readU8 : Spells readU8 fun ys b => ys = [b] := by
  intro xs b rest hread
  cases xs with
  | nil => cases hread
  | cons x xs =>
    cases hread
    exact ⟨[b], rfl, reads_readU8 b, rfl⟩

theorem spells_readBytes (n : ℕ) : Spells (readBytes n) fun ys bs => ys = bs ∧ bs.length = n := by
  induction n with
  | zero => exact Spells.pure ⟨rfl, rfl⟩
  | succ n ih =>
    refine spells_readU8.bind ?_
    rintro b _ rfl
    refine ih.bind ?_
    rintro bs _ ⟨rfl, hlength⟩
    refine Spells.pure ⟨?_, congrArg (· + 1) hlength⟩
    rw [List.append_nil, List.singleton_append]

end ByteParser
