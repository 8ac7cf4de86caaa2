import BundleProtocol.ByteParser

/-! # C strings in a fixed buffer

A length-prefixed string is copied into a zeroed buffer of `cap` bytes and read from there as a C
string.  Both steps can leave what is defined: the copy when the string is longer than the buffer, the
search for the terminator when the string fills it.  A `CheckedParser` ends with the fault when that
happens: a string without NUL comes back when it leaves room for the terminator (`takes_readCString`),
and leads to one of two faults when it does not.
-/
namespace FixedBuffer
open ByteParser

/-- A read beyond the end of the input, a write beyond the end of the buffer, and a search for the
terminator that runs past it. -/
inductive Fault
  | ended
  | overflow
  | unterminated
deriving DecidableEq

/-- A parser that reports what is undefined. -/
abbrev CheckedParser (α : Type) := StateT (List UInt8) (Except Fault) α

variable {α β : Type} {p : CheckedParser α} {f : α → CheckedParser β} {xs ys : List UInt8} {a : α}
  {b : β} {e : Fault}

/-- A parser that touches no buffer. -/
def checked (p : Parser α) : CheckedParser α := fun xs =>
  match p xs with
  | none => .error .ended
  | some r => .ok r

/-- `p` takes exactly `bytes`, as `a`, in front of any trailing bytes. -/
def Takes (p : CheckedParser α) (bytes : List UInt8) (a : α) : Prop :=
  ∀ rest, p (bytes ++ rest) = .ok (a, rest)

/-- `p` ends with the fault `e` on anything that starts with `bytes`. -/
def Faults (p : CheckedParser α) (bytes : List UInt8) (e : Fault) : Prop :=
  ∀ rest, p (bytes ++ rest) = .error e

theorem Takes.pure (a : α) : Takes (pure a) [] a := fun _ => rfl

theorem Takes.bind (hp : Takes p xs a) (hf : Takes (f a) ys b) : Takes (p >>= f) (xs ++ ys) b := by
  intro rest
  show (p (xs ++ ys ++ rest)).bind (fun r => f r.1 r.2) = .ok (b, rest)
  rw [List.append_assoc, hp (ys ++ rest)]
  exact hf rest

/-- What is taken is out of the way. -/
theorem Takes.bind_apply (hp : Takes p xs a) (ys : List UInt8) : (p >>= f) (xs ++ ys) = f a ys := by
  show (p (xs ++ ys)).bind (fun r => f r.1 r.2) = f a ys
  rw [hp ys]
  rfl

/-- A run that ends well does so in two steps. -/
theorem bind_eq_ok {r : β × List UInt8} (h : (p >>= f) xs = .ok r) :
    ∃ a ys, p xs = .ok (a, ys) ∧ f a ys = .ok r := by
  have hbind : (p xs).bind (fun r => f r.1 r.2) = .ok r := h
  cases hp : p xs with
  | error e =>
    rw [hp] at hbind
    cases hbind
  | ok r' =>
    rw [hp] at hbind
    exact ⟨r'.1, r'.2, rfl, hbind⟩

/-- The last step of a `do` block: nothing is left to take. -/
theorem Takes.bind_nil (hp : Takes p xs a) (hf : Takes (f a) [] b) : Takes (p >>= f) xs b := by
  have h := hp.bind hf
  rwa [List.append_nil] at h

theorem Takes.bind_faults (hp : Takes p xs a) (hf : Faults (f a) ys e) :
    Faults (p >>= f) (xs ++ ys) e := by
  intro rest
  show (p (xs ++ ys ++ rest)).bind (fun r => f r.1 r.2) = .error e
  rw [List.append_assoc, hp (ys ++ rest)]
  exact hf rest

/-- The fault at the end of what is taken. -/
theorem Takes.bind_faults_nil (hp : Takes p xs a) (hf : Faults (f a) [] e) : Faults (p >>= f) xs e := by
  have h := hp.bind_faults hf
  rwa [List.append_nil] at h

/-- Nothing runs after a fault. -/
theorem Faults.bind (hp : Faults p xs e) : Faults (p >>= f) xs e := by
  intro rest
  show (p (xs ++ rest)).bind (fun r => f r.1 r.2) = .error e
  rw [hp rest]
  rfl

theorem Faults.append (hp : Faults p xs e) (ys : List UInt8) : Faults p (xs ++ ys) e := by
  intro rest
  rw [List.append_assoc]
  exact hp (ys ++ rest)

theorem faults_throw : Faults (throw e : CheckedParser α) [] e := fun _ => rfl

theorem takes_checked {p : Parser α} (h : Reads p xs a) : Takes (checked p) xs a := by
  intro rest
  unfold checked
  rw [h rest]

/-! ## The buffer -/

/-- A copy of the next `n` bytes into a zeroed buffer of `cap` bytes. -/
def fill (cap n : ℕ) : CheckedParser (List UInt8) := do
  let bytes ← checked (readBytes n)
  if cap < n then throw .overflow else pure (bytes ++ List.replicate (cap - n) 0)

/-- The C string at the front of a buffer. -/
def cString (buf : List UInt8) : CheckedParser (List UInt8) :=
  if 0 ∈ buf then pure (buf.takeWhile (· != 0)) else throw .unterminated

/-- The next `n` bytes, by way of the buffer. -/
def readCString (cap n : ℕ) : CheckedParser (List UInt8) := do
  let buf ← fill cap n
  cString buf

variable {cap : ℕ} {s : List UInt8}

theorem takes_fill (h : s.length ≤ cap) :
    Takes (fill cap s.length) s (s ++ List.replicate (cap - s.length) 0) := by
  refine (takes_checked (reads_readBytes s)).bind_nil ?_
  rw [if_neg (Nat.not_lt.mpr h)]
  exact Takes.pure _

theorem faults_fill (h : cap < s.length) : Faults (fill cap s.length) s .overflow := by
  refine (takes_checked (reads_readBytes s)).bind_faults_nil ?_
  rw [if_pos h]
  exact faults_throw

/-- The zeros behind a string end it. -/
theorem takeWhile_append_zeros (hs : 0 ∉ s) (n : ℕ) :
    (s ++ List.replicate n 0).takeWhile (· != 0) = s := by
  rw [List.takeWhile_append_of_pos]
  · cases n <;> simp [List.replicate_succ]
  · intro b hb
    rw [bne_iff_ne]
    rintro rfl
    exact hs hb

theorem takes_readCString (hs : 0 ∉ s) (h : s.length < cap) : Takes (readCString cap s.length) s s := by
  refine (takes_fill (Nat.le_of_lt h)).bind_nil ?_
  have hterminator : (0 : UInt8) ∈ s ++ List.replicate (cap - s.length) 0 :=
    List.mem_append_right s (List.mem_replicate.mpr ⟨by omega, rfl⟩)
  rw [cString, if_pos hterminator, takeWhile_append_zeros hs]
  exact Takes.pure s

theorem faults_of_full (hs : 0 ∉ s) (h : s.length = cap) :
    Faults (readCString cap s.length) s .unterminated := by
  refine (takes_fill (Nat.le_of_eq h)).bind_faults_nil ?_
  rw [h, Nat.sub_self, List.replicate_zero, List.append_nil, cString, if_neg hs]
  exact faults_throw

theorem faults_of_long (h : cap < s.length) : Faults (readCString cap s.length) s .overflow :=
  (faults_fill h).bind

end FixedBuffer
