import BundleProtocol.Cbor

/-! # Decoders that are checked for what is undefined

A decoder is the tree of the items that it reads one after another, each item choosing what comes next
(`Decoder`).  A run of it ends with a value, with an exception, or with something undefined: a
look beyond the end, a string of a length that is negative when it is compared, a shift by as many bits
as the number has (`Decoder.run`).  Which inputs end so can be told from the items in them: those where
well-formed items lead to one that is none (`Decoder.run_eq_fault_iff`).
-/
namespace Cbor
open ByteParser

/-- How a run ends: with a value, the number of bytes that were taken and those left; with an
exception; or with something undefined. -/
inductive Outcome (α : Type)
  | ok (a : α) (length : ℕ) (rest : List UInt8)
  | thrown
  | fault

namespace Outcome
variable {α β : Type}

/-- What follows a value, with the lengths added up. -/
def andThen : Outcome α → (α → List UInt8 → Outcome β) → Outcome β
  | .ok a n rest, f =>
    match f a rest with
    | .ok b m rest => .ok b (n + m) rest
    | .thrown => .thrown
    | .fault => .fault
  | .thrown, _ => .thrown
  | .fault, _ => .fault

theorem andThen_eq_fault {o : Outcome α} {f : α → List UInt8 → Outcome β} : o.andThen f = .fault ↔
    o = .fault ∨ ∃ a n rest, o = .ok a n rest ∧ f a rest = .fault := by
  cases o with
  | ok a n rest =>
    simp only [andThen, reduceCtorEq, ok.injEq, false_or]
    constructor
    · intro h
      cases hf : f a rest with
      | ok b m rest' => simp [hf] at h
      | thrown => simp [hf] at h
      | fault => exact ⟨a, n, rest, ⟨rfl, rfl, rfl⟩, hf⟩
    · rintro ⟨_, _, _, ⟨rfl, rfl, rfl⟩, hf⟩
      rw [hf]
  | thrown => simp [andThen]
  | fault => simp [andThen]

theorem andThen_eq_ok {o : Outcome α} {f : α → List UInt8 → Outcome β} {b : β} {k : ℕ}
    {rest : List UInt8} : o.andThen f = .ok b k rest ↔
      ∃ a n mid m, o = .ok a n mid ∧ f a mid = .ok b m rest ∧ k = n + m := by
  cases o with
  | ok a n mid =>
    simp only [andThen, ok.injEq]
    constructor
    · intro h
      cases hf : f a mid with
      | ok b' m rest' =>
        rw [hf] at h
        cases h
        exact ⟨a, n, mid, m, ⟨rfl, rfl, rfl⟩, hf, rfl⟩
      | thrown => simp [hf] at h
      | fault => simp [hf] at h
    · rintro ⟨_, _, _, m, ⟨rfl, rfl, rfl⟩, hf, rfl⟩
      rw [hf]
  | thrown => simp [andThen]
  | fault => simp [andThen]

theorem andThen_eq_thrown {o : Outcome α} {f : α → List UInt8 → Outcome β} : o.andThen f = .thrown ↔
    o = .thrown ∨ ∃ a n rest, o = .ok a n rest ∧ f a rest = .thrown := by
  cases o with
  | ok a n rest =>
    simp only [andThen, reduceCtorEq, ok.injEq, false_or]
    constructor
    · intro h
      cases hf : f a rest with
      | ok b m rest' => simp [hf] at h
      | thrown => exact ⟨a, n, rest, ⟨rfl, rfl, rfl⟩, hf⟩
      | fault => simp [hf] at h
    · rintro ⟨_, _, _, ⟨rfl, rfl, rfl⟩, hf⟩
      rw [hf]
  | thrown => simp [andThen]
  | fault => simp [andThen]

end Outcome

/-! ## Items -/

/-- `decodeTagAndValue` into an integer of `width` bits. -/
def checkedHead (width : ℕ) : List UInt8 → Outcome (ℕ × ℕ)
  | [] => .thrown
  | octet :: xs =>
    let tag := octet.toNat / 32 * 32
    let additional := octet.toNat % 32
    if additional < 24 then .ok (tag, additional) 1 xs
    else
      match followingBytes additional with
      | none => .thrown
      | some n =>
        if xs.length < n then .thrown
        -- the first of the bytes is shifted by the bits of the others
        else if width ≤ 8 * (n - 1) then .fault
        else .ok (tag, bigEndianValue (xs.take n) % 2 ^ width) (1 + n) (xs.drop n)

/-- The value of a head of major type `tag`. -/
def checkedNumber (tag width : ℕ) (xs : List UInt8) : Outcome ℕ :=
  (checkedHead width xs).andThen fun head rest =>
    if head.1 = tag then .ok head.2 0 rest else .thrown

/-- `decodeBytes`.  Its length is compared with the bytes that are left as a signed number. -/
def checkedString (xs : List UInt8) : Outcome (List UInt8) :=
  (checkedNumber byteString 64 xs).andThen fun value rest =>
    if 2 ^ 63 ≤ value then .fault
    else if rest.length < value then .thrown
    else .ok (rest.take value) value (rest.drop value)

/-- The bytes are a head of this major type and value, for an integer of `width` bits. -/
inductive IsHead (tag width : ℕ) : ℕ → List UInt8 → Prop
  | low {octet : UInt8} (htag : octet.toNat / 32 * 32 = tag) (hlow : octet.toNat % 32 < 24) :
      IsHead tag width (octet.toNat % 32) [octet]
  | following {octet : UInt8} {bytes : List UInt8} (htag : octet.toNat / 32 * 32 = tag)
      (hn : followingBytes (octet.toNat % 32) = some bytes.length)
      (hfit : 8 * (bytes.length - 1) < width) :
      IsHead tag width (bigEndianValue bytes % 2 ^ width) (octet :: bytes)

/-- A head stands here, of any major type, whose bytes of value do not fit an integer of `width`
bits. -/
def TooWide (width : ℕ) (xs : List UInt8) : Prop :=
  ∃ (octet : UInt8) (bytes rest : List UInt8), followingBytes (octet.toNat % 32) = some bytes.length ∧
    width ≤ 8 * (bytes.length - 1) ∧ xs = octet :: (bytes ++ rest)

theorem not_lt_of_followingBytes {additional n : ℕ} (h : followingBytes additional = some n) :
    ¬additional < 24 := by
  intro hlow
  unfold followingBytes at h
  split at h <;> first | omega | cases h

theorem checkedHead_eq_fault {width : ℕ} {xs : List UInt8} :
    checkedHead width xs = .fault ↔ TooWide width xs := by
  constructor
  · intro h
    cases xs with
    | nil => cases h
    | cons octet xs =>
      unfold checkedHead at h
      dsimp only at h
      split at h
      · cases h
      split at h
      · cases h
      rename_i n hn
      split at h
      · cases h
      split at h
      · rename_i hlen hwide
        have htake : (xs.take n).length = n := List.length_take_of_le (not_lt.mp hlen)
        refine ⟨octet, xs.take n, xs.drop n, ?_, ?_, ?_⟩
        · rw [htake, hn]
        · rwa [htake]
        · rw [List.take_append_drop]
      · cases h
  · rintro ⟨octet, bytes, rest, hn, hwide, rfl⟩
    unfold checkedHead
    dsimp only
    rw [if_neg (not_lt_of_followingBytes hn), hn]
    dsimp only
    rw [if_neg (by simp), if_pos hwide]

theorem checkedHead_eq_ok {width tag v n : ℕ} {xs rest : List UInt8} :
    checkedHead width xs = .ok (tag, v) n rest ↔
      ∃ ys, xs = ys ++ rest ∧ n = ys.length ∧ IsHead tag width v ys := by
  constructor
  · intro h
    cases xs with
    | nil => cases h
    | cons octet xs =>
      unfold checkedHead at h
      dsimp only at h
      split at h
      · rename_i hlow
        cases h
        exact ⟨[octet], rfl, rfl, .low rfl hlow⟩
      split at h
      · cases h
      rename_i n hn
      split at h
      · cases h
      split at h
      · cases h
      rename_i hlen hfit
      have htake : (xs.take n).length = n := List.length_take_of_le (not_lt.mp hlen)
      cases h
      refine ⟨octet :: xs.take n, ?_, ?_, .following rfl ?_ ?_⟩
      · rw [List.cons_append, List.take_append_drop]
      · rw [List.length_cons, htake, Nat.add_comm]
      · rw [htake, hn]
      · rw [htake]
        omega
  · rintro ⟨ys, rfl, rfl, hhead⟩
    cases hhead with
    | low htag hlow =>
      unfold checkedHead
      dsimp only [List.cons_append, List.nil_append]
      rw [if_pos hlow, htag]
      rfl
    | following htag hn hfit =>
      unfold checkedHead
      dsimp only [List.cons_append]
      rw [if_neg (not_lt_of_followingBytes hn), hn]
      dsimp only
      rw [if_neg (by simp), if_neg (by omega), htag, List.take_left, List.drop_left, List.length_cons,
        Nat.add_comm]

theorem checkedNumber_eq_fault {tag width : ℕ} {xs : List UInt8} :
    checkedNumber tag width xs = .fault ↔ TooWide width xs := by
  unfold checkedNumber
  rw [Outcome.andThen_eq_fault, checkedHead_eq_fault, or_iff_left]
  rintro ⟨head, n, rest, -, h⟩
  split at h <;> cases h

theorem checkedNumber_eq_ok {tag width v n : ℕ} {xs rest : List UInt8} :
    checkedNumber tag width xs = .ok v n rest ↔
      ∃ ys, xs = ys ++ rest ∧ n = ys.length ∧ IsHead tag width v ys := by
  unfold checkedNumber
  rw [Outcome.andThen_eq_ok, ← checkedHead_eq_ok]
  constructor
  · rintro ⟨⟨t, w⟩, k, mid, m, hhead, h, rfl⟩
    split at h
    · rename_i htag
      cases h
      rw [hhead, ← htag]
      rfl
    · cases h
  · intro h
    exact ⟨(tag, v), n, rest, 0, h, if_pos rfl, rfl⟩

theorem not_tooWide (xs : List UInt8) : ¬TooWide 64 xs := by
  rintro ⟨octet, bytes, rest, hn, hwide, -⟩
  have hle : bytes.length ≤ 8 := by
    generalize bytes.length = n at hn
    unfold followingBytes at hn
    split at hn <;> simp at hn <;> omega
  omega

theorem checkedString_eq_fault {xs : List UInt8} : checkedString xs = .fault ↔
    ∃ ys v rest, xs = ys ++ rest ∧ IsHead byteString 64 v ys ∧ 2 ^ 63 ≤ v := by
  unfold checkedString
  rw [Outcome.andThen_eq_fault, checkedNumber_eq_fault]
  simp only [not_tooWide, false_or, checkedNumber_eq_ok]
  constructor
  · rintro ⟨v, n, rest, ⟨ys, rfl, -, hhead⟩, h⟩
    refine ⟨ys, v, rest, rfl, hhead, ?_⟩
    split at h
    · assumption
    · split at h <;> cases h
  · rintro ⟨ys, v, rest, rfl, hhead, hv⟩
    exact ⟨v, ys.length, rest, ⟨ys, rfl, rfl, hhead⟩, if_pos hv⟩

theorem checkedString_eq_ok {xs s rest : List UInt8} {n : ℕ} : checkedString xs = .ok s n rest ↔
    ∃ ys, xs = ys ++ s ++ rest ∧ n = ys.length + s.length ∧ IsHead byteString 64 s.length ys ∧
      s.length < 2 ^ 63 := by
  unfold checkedString
  rw [Outcome.andThen_eq_ok]
  simp only [checkedNumber_eq_ok]
  constructor
  · rintro ⟨v, k, mid, m, ⟨ys, rfl, rfl, hhead⟩, h, rfl⟩
    split at h
    · cases h
    split at h
    · cases h
    rename_i hv hlen
    have htake : (mid.take v).length = v := List.length_take_of_le (not_lt.mp hlen)
    cases h
    refine ⟨ys, ?_, ?_, ?_, ?_⟩
    · rw [List.append_assoc, List.take_append_drop]
    · rw [htake]
    · rwa [htake]
    · rw [htake]
      exact not_le.mp hv
  · rintro ⟨ys, rfl, rfl, hhead, hlt⟩
    refine ⟨s.length, ys.length, s ++ rest, s.length, ⟨ys, List.append_assoc _ _ _, rfl, hhead⟩, ?_, rfl⟩
    rw [if_neg (not_le.mpr hlt), if_neg (by simp), List.take_left, List.drop_left]

/-! ## Decoders -/

/-- A decoder: an item to read, and what to do with its value.  `peek` looks at the next byte without
asking whether there is one. -/
inductive Decoder (α : Type)
  | done (a : α)
  | number (tag width : ℕ) (next : ℕ → Decoder α)
  | string (next : List UInt8 → Decoder α)
  | peek (next : UInt8 → Decoder α)

namespace Decoder
variable {α β : Type}

/-- One decoder after another. -/
def bind : Decoder α → (α → Decoder β) → Decoder β
  | .done a, f => f a
  | .number tag width next, f => .number tag width fun v => (next v).bind f
  | .string next, f => .string fun s => (next s).bind f
  | .peek next, f => .peek fun b => (next b).bind f

instance : Monad Decoder where
  pure := .done
  bind := bind

/-- The run of a decoder. -/
def run : Decoder α → List UInt8 → Outcome α
  | .done a, xs => .ok a 0 xs
  | .number tag width next, xs => (checkedNumber tag width xs).andThen fun v rest => (next v).run rest
  | .string next, xs => (checkedString xs).andThen fun s rest => (next s).run rest
  | .peek _, [] => .fault
  | .peek next, b :: xs => (next b).run (b :: xs)

/-- The parser that is not checked. -/
def parser : Decoder α → Parser α
  | .done a => pure a
  | .number tag width next => decodeTagged tag width >>= fun v => (next v).parser
  | .string next => decodeBytes >>= fun s => (next s).parser
  | .peek next => peekU8 >>= fun b => (next b).parser

/-- The inputs that break a decoder: after items that are well formed comes a head that is too wide for
its integer, a string with a length of more than 63 bits, or the end where a byte is looked at. -/
inductive Breaks : Decoder α → List UInt8 → Prop
  | wide {tag width : ℕ} {next : ℕ → Decoder α} {xs : List UInt8} (h : TooWide width xs) :
      Breaks (.number tag width next) xs
  | number {tag width v : ℕ} {next : ℕ → Decoder α} {ys rest : List UInt8}
      (hhead : IsHead tag width v ys) (h : Breaks (next v) rest) :
      Breaks (.number tag width next) (ys ++ rest)
  | huge {next : List UInt8 → Decoder α} {v : ℕ} {ys rest : List UInt8}
      (hhead : IsHead byteString 64 v ys) (hv : 2 ^ 63 ≤ v) : Breaks (.string next) (ys ++ rest)
  | string {next : List UInt8 → Decoder α} {ys s rest : List UInt8}
      (hhead : IsHead byteString 64 s.length ys) (hlen : s.length < 2 ^ 63) (h : Breaks (next s) rest) :
      Breaks (.string next) (ys ++ s ++ rest)
  | atEnd {next : UInt8 → Decoder α} : Breaks (.peek next) []
  | peek {next : UInt8 → Decoder α} {b : UInt8} {rest : List UInt8} (h : Breaks (next b) (b :: rest)) :
      Breaks (.peek next) (b :: rest)

/-- **What breaks a decoder is told by the items of its input.** -/
theorem run_eq_fault_iff {d : Decoder α} {xs : List UInt8} : d.run xs = .fault ↔ d.Breaks xs := by
  induction d generalizing xs with
  | done a =>
    refine iff_of_false (fun h => ?_) (fun h => ?_)
    · cases h
    · cases h
  | number tag width next ih =>
    unfold run
    rw [Outcome.andThen_eq_fault, checkedNumber_eq_fault]
    simp only [checkedNumber_eq_ok]
    constructor
    · rintro (hwide | ⟨v, n, rest, ⟨ys, rfl, -, hhead⟩, h⟩)
      · exact .wide hwide
      · exact .number hhead ((ih v).mp h)
    · intro h
      cases h with
      | wide hwide => exact Or.inl hwide
      | @number _ _ v _ ys rest hhead h => exact Or.inr ⟨v, _, rest, ⟨ys, rfl, rfl, hhead⟩, (ih v).mpr h⟩
  | string next ih =>
    unfold run
    rw [Outcome.andThen_eq_fault, checkedString_eq_fault]
    simp only [checkedString_eq_ok]
    constructor
    · rintro (⟨ys, v, rest, rfl, hhead, hv⟩ | ⟨s, n, rest, ⟨ys, rfl, -, hhead, hlen⟩, h⟩)
      · exact .huge hhead hv
      · exact .string hhead hlen ((ih s).mp h)
    · intro h
      cases h with
      | @huge _ v ys rest hhead hv => exact Or.inl ⟨ys, v, rest, rfl, hhead, hv⟩
      | @string _ ys s rest hhead hlen h =>
        exact Or.inr ⟨s, _, rest, ⟨ys, rfl, rfl, hhead, hlen⟩, (ih s).mpr h⟩
  | peek next ih =>
    cases xs with
    | nil => exact iff_of_true rfl .atEnd
    | cons b xs =>
      constructor
      · intro h
        exact .peek ((ih b).mp h)
      · intro h
        cases h with
        | peek h => exact (ih b).mpr h

/-- The length that a run returns is the number of bytes it took. -/
theorem length_of_run {d : Decoder α} {xs rest : List UInt8} {a : α} {n : ℕ}
    (h : d.run xs = .ok a n rest) : n + rest.length = xs.length := by
  induction d generalizing xs n with
  | done a =>
    cases h
    exact Nat.zero_add _
  | number tag width next ih =>
    obtain ⟨v, k, mid, m, hnumber, hrest, rfl⟩ := Outcome.andThen_eq_ok.mp h
    obtain ⟨ys, rfl, rfl, -⟩ := checkedNumber_eq_ok.mp hnumber
    have hlen := ih v hrest
    rw [List.length_append]
    omega
  | string next ih =>
    obtain ⟨s, k, mid, m, hstring, hrest, rfl⟩ := Outcome.andThen_eq_ok.mp h
    obtain ⟨ys, rfl, rfl, -⟩ := checkedString_eq_ok.mp hstring
    have hlen := ih s hrest
    rw [List.length_append, List.length_append]
    omega
  | peek next ih =>
    cases xs with
    | nil => cases h
    | cons b xs => exact ih b h

end Decoder

/-! ## The parser that is not checked -/

/-- The widths of unsigned integer types, or smaller ones. -/
def Standard (width : ℕ) : Prop := width ≤ 32 ∨ width = 64

theorem decodeTagAndValue_of_ok {width t v n : ℕ} {xs rest : List UInt8} (hwidth : Standard width)
    (h : checkedHead width xs = .ok (t, v) n rest) :
    decodeTagAndValue width xs = some ((t, v), rest) := by
  obtain ⟨ys, rfl, -, hhead⟩ := checkedHead_eq_ok.mp h
  cases hhead with
  | @low octet htag hlow =>
    show decodeValue width (octet.toNat / 32 * 32) (octet.toNat % 32) rest = _
    rw [decodeValue, if_pos hlow, htag]
    rfl
  | @following octet bytes htag hn hfit =>
    -- eight bytes are not read into a narrower integer
    have hnarrow : ¬(bytes.length = 8 ∧ width < 64) := by
      rintro ⟨height, hlt⟩
      rw [height] at hfit
      rcases hwidth with hle | heq <;> omega
    show decodeValue width (octet.toNat / 32 * 32) (octet.toNat % 32) (bytes ++ rest) = _
    rw [decodeValue, if_neg (not_lt_of_followingBytes hn), hn]
    show (ite _ _ _ : Parser (ℕ × ℕ)) (bytes ++ rest) = _
    rw [if_neg hnarrow, htag]
    exact (reads_readBytes bytes).bind_pure rest

theorem decodeTagAndValue_of_thrown {width : ℕ} {xs : List UInt8}
    (h : checkedHead width xs = .thrown) : decodeTagAndValue width xs = none := by
  cases xs with
  | nil => rfl
  | cons octet xs =>
    show decodeValue width (octet.toNat / 32 * 32) (octet.toNat % 32) xs = none
    unfold checkedHead at h
    dsimp only at h
    split at h
    · cases h
    rename_i hhigh
    rw [decodeValue, if_neg hhigh]
    split at h
    · rename_i hnone
      rw [hnone]
      rfl
    rename_i n hn
    split at h
    · -- the input ends within the value
      rename_i hlen
      rw [hn]
      show (ite _ _ _ : Parser (ℕ × ℕ)) xs = none
      split
      · rfl
      · show ((readBytes n) xs).bind _ = none
        rw [readBytes_of_lt hlen]
        rfl
    · split at h <;> cases h

theorem decodeTagged_of_ok {tag width v n : ℕ} {xs rest : List UInt8} (hwidth : Standard width)
    (h : checkedNumber tag width xs = .ok v n rest) : decodeTagged tag width xs = some (v, rest) := by
  have hhead := decodeTagAndValue_of_ok hwidth (checkedHead_eq_ok.mpr (checkedNumber_eq_ok.mp h))
  show (decodeTagAndValue width xs).bind _ = _
  rw [hhead, Option.bind_some]
  show (ite _ _ _ : Parser ℕ) rest = _
  rw [if_pos rfl]
  rfl

theorem decodeTagged_of_thrown {tag width : ℕ} {xs : List UInt8} (hwidth : Standard width)
    (h : checkedNumber tag width xs = .thrown) : decodeTagged tag width xs = none := by
  show (decodeTagAndValue width xs).bind _ = none
  rcases Outcome.andThen_eq_thrown.mp h with hthrown | ⟨⟨t, v⟩, n, rest, hhead, hrest⟩
  · rw [decodeTagAndValue_of_thrown hthrown]
    rfl
  · rw [decodeTagAndValue_of_ok hwidth hhead, Option.bind_some]
    show (ite _ _ _ : Parser ℕ) rest = none
    split at hrest
    · cases hrest
    · rename_i hne
      rw [if_neg hne]
      rfl

theorem decodeBytes_of_ok {xs s rest : List UInt8} {n : ℕ} (h : checkedString xs = .ok s n rest) :
    decodeBytes xs = some (s, rest) := by
  obtain ⟨ys, rfl, -, hhead, -⟩ := checkedString_eq_ok.mp h
  have hnumber : checkedNumber byteString 64 (ys ++ s ++ rest) = .ok s.length ys.length (s ++ rest) :=
    checkedNumber_eq_ok.mpr ⟨ys, List.append_assoc _ _ _, rfl, hhead⟩
  show (decodeTagged byteString 64 (ys ++ s ++ rest)).bind _ = _
  rw [decodeTagged_of_ok (Or.inr rfl) hnumber, Option.bind_some]
  exact reads_readBytes s rest

theorem decodeBytes_of_thrown {xs : List UInt8} (h : checkedString xs = .thrown) :
    decodeBytes xs = none := by
  show (decodeTagged byteString 64 xs).bind _ = none
  rcases Outcome.andThen_eq_thrown.mp h with hthrown | ⟨v, n, rest, hnumber, hrest⟩
  · rw [decodeTagged_of_thrown (Or.inr rfl) hthrown]
    rfl
  · rw [decodeTagged_of_ok (Or.inr rfl) hnumber, Option.bind_some]
    split at hrest
    · cases hrest
    split at hrest
    · rename_i hlen
      exact readBytes_of_lt hlen
    · cases hrest

namespace Decoder
variable {α β : Type}

/-- All numbers have standard widths. -/
inductive Plain : Decoder α → Prop
  | done (a : α) : Plain (.done a)
  | number {tag width : ℕ} {next : ℕ → Decoder α} (hwidth : Standard width) (h : ∀ v, Plain (next v)) :
      Plain (.number tag width next)
  | string {next : List UInt8 → Decoder α} (h : ∀ s, Plain (next s)) : Plain (.string next)
  | peek {next : UInt8 → Decoder α} (h : ∀ b, Plain (next b)) : Plain (.peek next)

theorem Plain.bind {d : Decoder α} {f : α → Decoder β} (hd : d.Plain) (hf : ∀ a, (f a).Plain) :
    (d >>= f).Plain := by
  induction hd with
  | done a => exact hf a
  | number hwidth _ ih => exact .number hwidth ih
  | string _ ih => exact .string ih
  | peek _ ih => exact .peek ih

/-- **The checked run is a run of the parser**, as far as nothing undefined happens. -/
theorem parser_of_run {d : Decoder α} (hd : d.Plain) {xs : List UInt8} :
    (∀ a n rest, d.run xs = .ok a n rest → d.parser xs = some (a, rest)) ∧
      (d.run xs = .thrown → d.parser xs = none) := by
  induction hd generalizing xs with
  | done a =>
    refine ⟨fun a n rest h => ?_, fun h => ?_⟩
    · cases h
      rfl
    · cases h
  | @number tag width next hwidth _ ih =>
    refine ⟨fun a n rest h => ?_, fun h => ?_⟩
    · obtain ⟨v, k, mid, m, hnumber, hrest, -⟩ := Outcome.andThen_eq_ok.mp h
      show (decodeTagged tag width xs).bind _ = _
      rw [decodeTagged_of_ok hwidth hnumber]
      exact (ih v).1 a m rest hrest
    · show (decodeTagged tag width xs).bind _ = none
      rcases Outcome.andThen_eq_thrown.mp h with hthrown | ⟨v, k, mid, hnumber, hrest⟩
      · rw [decodeTagged_of_thrown hwidth hthrown]
        rfl
      · rw [decodeTagged_of_ok hwidth hnumber]
        exact (ih v).2 hrest
  | @string next _ ih =>
    refine ⟨fun a n rest h => ?_, fun h => ?_⟩
    · obtain ⟨s, k, mid, m, hstring, hrest, -⟩ := Outcome.andThen_eq_ok.mp h
      show (decodeBytes xs).bind _ = _
      rw [decodeBytes_of_ok hstring]
      exact (ih s).1 a m rest hrest
    · show (decodeBytes xs).bind _ = none
      rcases Outcome.andThen_eq_thrown.mp h with hthrown | ⟨s, k, mid, hstring, hrest⟩
      · rw [decodeBytes_of_thrown hthrown]
        rfl
      · rw [decodeBytes_of_ok hstring]
        exact (ih s).2 hrest
  | @peek next _ ih =>
    cases xs with
    | nil =>
      -- looking behind the end is neither a value nor an exception
      refine ⟨fun a n rest h => ?_, fun h => ?_⟩
      · cases h
      · cases h
    | cons b xs => exact ih b

end Decoder
end Cbor
