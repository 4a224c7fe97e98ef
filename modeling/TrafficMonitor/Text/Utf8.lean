/-!
Reading bytes as UTF-8 one byte at a time. A byte sequence that begins no character, or stops one
before its end, becomes a single replacement character; reading then resumes at the byte that did
not fit.
-/

namespace TrafficMonitor.Text.Utf8

structure Partial where
  owed : Nat
  low : Nat
  high : Nat
  bits : Nat
  deriving DecidableEq, Repr

structure Yield where
  chars : List Char
  begun : Option Partial

def replacement : Char := '\ufffd'

def tail (owed low high bits : Nat) : Yield := ⟨[], some ⟨owed, low, high, bits⟩⟩

/-- The first byte of a character. The second byte is narrowed so that no character has a longer
form than it needs, none is a surrogate and none lies beyond U+10FFFF. -/
def first (b : Nat) : Yield :=
  if b < 0x80 then ⟨[Char.ofNat b], none⟩
  else if 0xC2 ≤ b && b ≤ 0xDF then tail 1 0x80 0xBF (b - 0xC0)
  else if b == 0xE0 then tail 2 0xA0 0xBF 0
  else if b == 0xED then tail 2 0x80 0x9F 0xD
  else if 0xE1 ≤ b && b ≤ 0xEF then tail 2 0x80 0xBF (b - 0xE0)
  else if b == 0xF0 then tail 3 0x90 0xBF 0
  else if 0xF1 ≤ b && b ≤ 0xF3 then tail 3 0x80 0xBF (b - 0xF0)
  else if b == 0xF4 then tail 3 0x80 0x8F 4
  else ⟨[replacement], none⟩

def push (begun : Option Partial) (b : Nat) : Yield :=
  match begun with
  | none => first b
  | some p =>
    if p.low ≤ b && b ≤ p.high then
      let bits := p.bits * 0x40 + (b - 0x80)
      if p.owed ≤ 1 then ⟨[Char.ofNat bits], none⟩ else tail (p.owed - 1) 0x80 0xBF bits
    else
      let next := first b
      { next with chars := replacement :: next.chars }

def decodeFrom : Option Partial → List UInt8 → List Char
  | begun, [] => if begun.isSome then [replacement] else []
  | begun, b :: bs =>
    let next := push begun b.toNat
    next.chars ++ decodeFrom next.begun bs

def decode? (bytes : List UInt8) : Option String := String.fromUTF8? ⟨bytes.toArray⟩

section Reading

variable {b owed low high bits : Nat} {byte : UInt8} (bs : List UInt8)

theorem first_ascii (h : b < 0x80) : first b = ⟨[Char.ofNat b], none⟩ := if_pos h

theorem first_two (hlow : 0xC2 ≤ b) (hhigh : b ≤ 0xDF) : first b = tail 1 0x80 0xBF (b - 0xC0) := by
  rw [first, if_neg (by omega), if_pos (by simp [hlow, hhigh])]

theorem first_three (hlow : 0xE0 ≤ b) (hhigh : b ≤ 0xEF) :
    first b =
      tail 2 (if b = 0xE0 then 0xA0 else 0x80) (if b = 0xED then 0x9F else 0xBF) (b - 0xE0) := by
  have htwo : ¬(0xC2 ≤ b && b ≤ 0xDF) = true := by
    rw [Bool.and_eq_true, decide_eq_true_eq, decide_eq_true_eq]
    omega
  rw [first, if_neg (by omega), if_neg htwo]
  by_cases he0 : b = 0xE0
  · subst he0
    rfl
  by_cases hed : b = 0xED
  · subst hed
    rfl
  have hthree : (0xE1 ≤ b && b ≤ 0xEF) = true := by
    rw [Bool.and_eq_true, decide_eq_true_eq, decide_eq_true_eq]
    omega
  simp [he0, hed, hthree]

theorem first_four (hlow : 0xF0 ≤ b) (hhigh : b ≤ 0xF4) :
    first b =
      tail 3 (if b = 0xF0 then 0x90 else 0x80) (if b = 0xF4 then 0x8F else 0xBF) (b - 0xF0) := by
  obtain rfl | rfl | rfl | rfl | rfl : b = 0xF0 ∨ b = 0xF1 ∨ b = 0xF2 ∨ b = 0xF3 ∨ b = 0xF4 := by omega
  all_goals rfl

theorem decodeFrom_first (h : first byte.toNat = tail owed low high bits) :
    decodeFrom none (byte :: bs) = decodeFrom (some ⟨owed, low, high, bits⟩) bs := by
  rw [decodeFrom, push, h]
  rfl

section Continuation

variable (hlow : low ≤ byte.toNat) (hhigh : byte.toNat ≤ high)

include hlow hhigh

theorem decodeFrom_more (howed : 1 < owed) :
    decodeFrom (some ⟨owed, low, high, bits⟩) (byte :: bs) =
      decodeFrom (some ⟨owed - 1, 0x80, 0xBF, bits * 0x40 + (byte.toNat - 0x80)⟩) bs := by
  simp [decodeFrom, push, hlow, hhigh, Nat.not_le_of_lt howed, tail]

theorem decodeFrom_last :
    decodeFrom (some ⟨1, low, high, bits⟩) (byte :: bs) =
      Char.ofNat (bits * 0x40 + (byte.toNat - 0x80)) :: decodeFrom none bs := by
  simp [decodeFrom, push, hlow, hhigh]

end Continuation

theorem toNat_ofNat {n : Nat} (h : n < 0x100) : (UInt8.ofNat n).toNat = n :=
  UInt8.toNat_ofNat_of_lt' h

-- The first byte of a longer form has the leading bits, and each of the others six.

theorem decodeFrom_two {v : Nat} (hlow : 0x80 ≤ v) (hhigh : v < 0x800) :
    decodeFrom none (UInt8.ofNat (v / 64 % 32 + 192) :: UInt8.ofNat (v % 64 + 128) :: bs) =
      Char.ofNat v :: decodeFrom none bs := by
  have hlead := toNat_ofNat (n := v / 64 % 32 + 192) (by omega)
  have hlast := toNat_ofNat (n := v % 64 + 128) (by omega)
  have hbits : (v / 64 % 32 + 192 - 0xC0) * 0x40 + (v % 64 + 128 - 0x80) = v := by omega
  rw [decodeFrom_first _ (first_two (by omega) (by omega)), decodeFrom_last _ (by omega) (by omega),
    hlead, hlast, hbits]

theorem decodeFrom_three {v : Nat} (hlow : 0x800 ≤ v) (hhigh : v < 0x10000)
    (hsurrogate : v < 0xD800 ∨ 0xDFFF < v) :
    decodeFrom none (UInt8.ofNat (v / 4096 % 16 + 224) :: UInt8.ofNat (v / 64 % 64 + 128) ::
      UInt8.ofNat (v % 64 + 128) :: bs) = Char.ofNat v :: decodeFrom none bs := by
  have hlead := toNat_ofNat (n := v / 4096 % 16 + 224) (by omega)
  have hmiddle := toNat_ofNat (n := v / 64 % 64 + 128) (by omega)
  have hlast := toNat_ofNat (n := v % 64 + 128) (by omega)
  have hbits : ((v / 4096 % 16 + 224 - 0xE0) * 0x40 + (v / 64 % 64 + 128 - 0x80)) * 0x40 +
      (v % 64 + 128 - 0x80) = v := by omega
  rw [decodeFrom_first _ (first_three (by omega) (by omega)),
    decodeFrom_more _ (by split <;> omega) (by split <;> omega) (by decide),
    decodeFrom_last _ (by omega) (by omega), hlead, hmiddle, hlast, hbits]

theorem decodeFrom_four {v : Nat} (hlow : 0x10000 ≤ v) (hhigh : v < 0x110000) :
    decodeFrom none (UInt8.ofNat (v / 262144 % 8 + 240) :: UInt8.ofNat (v / 4096 % 64 + 128) ::
      UInt8.ofNat (v / 64 % 64 + 128) :: UInt8.ofNat (v % 64 + 128) :: bs) =
      Char.ofNat v :: decodeFrom none bs := by
  have hlead := toNat_ofNat (n := v / 262144 % 8 + 240) (by omega)
  have hupper := toNat_ofNat (n := v / 4096 % 64 + 128) (by omega)
  have hmiddle := toNat_ofNat (n := v / 64 % 64 + 128) (by omega)
  have hlast := toNat_ofNat (n := v % 64 + 128) (by omega)
  have hbits : (((v / 262144 % 8 + 240 - 0xF0) * 0x40 + (v / 4096 % 64 + 128 - 0x80)) * 0x40 +
      (v / 64 % 64 + 128 - 0x80)) * 0x40 + (v % 64 + 128 - 0x80) = v := by omega
  rw [decodeFrom_first _ (first_four (by omega) (by omega)),
    decodeFrom_more _ (by split <;> omega) (by split <;> omega) (by decide),
    decodeFrom_more _ (by omega) (by omega) (by decide),
    decodeFrom_last _ (by omega) (by omega), hlead, hupper, hmiddle, hlast, hbits]

theorem decodeFrom_utf8EncodeChar (c : Char) :
    decodeFrom none (String.utf8EncodeChar c ++ bs) = c :: decodeFrom none bs := by
  have hvalid : c.val.toNat < 0xD800 ∨ 0xDFFF < c.val.toNat ∧ c.val.toNat < 0x110000 := c.valid
  have hc : Char.ofNat c.val.toNat = c := Char.ofNat_toNat c
  rw [String.utf8EncodeChar]
  generalize c.val.toNat = v at hvalid hc
  rw [← hc]
  split
  case isTrue hone =>
    rw [List.cons_append, decodeFrom, push, toNat_ofNat (by omega), first_ascii (by omega)]
    rfl
  split
  case isTrue htwo => exact decodeFrom_two bs (by omega) (by omega)
  split
  case isTrue hthree => exact decodeFrom_three bs (by omega) (by omega) (by omega)
  case isFalse hfour => exact decodeFrom_four bs (by omega) (by omega)

end Reading

theorem decodeFrom_encoded (cs : List Char) :
    decodeFrom none (cs.flatMap String.utf8EncodeChar) = cs := by
  induction cs with
  | nil => rfl
  | cons c cs ih => rw [List.flatMap_cons, decodeFrom_utf8EncodeChar, ih]

theorem bytes_eq (text : String) :
    text.toByteArray.data.toList = text.toList.flatMap String.utf8EncodeChar := by
  conv => lhs; rw [← String.ofList_toList (s := text), String.toByteArray_ofList]
  rw [List.utf8Encode, List.data_toByteArray]

theorem decodeFrom_bytes (text : String) :
    decodeFrom none text.toByteArray.data.toList = text.toList := by
  rw [bytes_eq, decodeFrom_encoded]

theorem eq_of_mem_utf8EncodeChar {a c : Char} (ha : a.toNat < 0x80)
    (h : UInt8.ofNat a.toNat ∈ String.utf8EncodeChar c) : c = a := by
  have hbyte := toNat_ofNat (n := a.toNat) (by omega)
  -- all bytes of a character beyond ASCII have their highest bit set
  have hhigh {n : Nat} (hn : n < 0x100) (hset : 0x80 ≤ n) : UInt8.ofNat a.toNat ≠ UInt8.ofNat n := by
    rw [Ne, ← UInt8.toNat_inj, hbyte, toNat_ofNat hn]
    omega
  simp only [String.utf8EncodeChar] at h
  split at h
  case isTrue hone =>
    rw [List.mem_singleton, ← UInt8.toNat_inj, hbyte, toNat_ofNat (by omega)] at h
    exact Char.ext (UInt32.toNat_inj.1 h.symm)
  split at h
  · simp only [List.mem_cons, List.not_mem_nil, or_false] at h
    rcases h with h | h <;> exact absurd h (hhigh (by omega) (by omega))
  split at h
  · simp only [List.mem_cons, List.not_mem_nil, or_false] at h
    rcases h with h | h | h <;> exact absurd h (hhigh (by omega) (by omega))
  · simp only [List.mem_cons, List.not_mem_nil, or_false] at h
    rcases h with h | h | h | h <;> exact absurd h (hhigh (by omega) (by omega))

theorem mem_bytes_iff {a : Char} (ha : a.toNat < 0x80) (cs : List Char) :
    UInt8.ofNat a.toNat ∈ cs.flatMap String.utf8EncodeChar ↔ a ∈ cs := by
  rw [List.mem_flatMap]
  constructor
  · rintro ⟨c, hc, hmem⟩
    exact eq_of_mem_utf8EncodeChar ha hmem ▸ hc
  · intro hmem
    have hone : a.val.toNat ≤ 0x7f := Nat.le_of_lt_succ ha
    refine ⟨a, hmem, ?_⟩
    rw [String.utf8EncodeChar, if_pos hone]
    exact List.mem_singleton.2 rfl

end TrafficMonitor.Text.Utf8
