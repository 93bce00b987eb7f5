import TkmChain.Bytes

/-!
# RLP

Strings, numbers and lists in the recursive length prefix format, and the
canonical decoder: `split` cuts off the first value and rejects every
non-minimal size. What is encoded is read back, so an encoding determines the
value and what follows it.
-/

namespace Rlp

open List

variable {n a : Nat} {c b : Bytes} {items l : List Bytes} {p : Bytes × Bytes}

inductive Kind
  | str
  | list
  deriving DecidableEq, Repr

/-- The prefix of a payload of `n` bytes: one byte below 56, else the size of
the size and the size. -/
def header (short n : Nat) : Bytes :=
  if n < 56 then [UInt8.ofNat (short + n)] else UInt8.ofNat (short + 55 + Bytes.width n) :: Bytes.minimal n

def single : Bytes → Bool
  | [x] => x.toNat < 0x80
  | _ => false

def encodeStr (b : Bytes) : Bytes := if single b then b else header 0x80 b.length ++ b

def encodeNat (n : Nat) : Bytes := encodeStr (Bytes.minimal n)

def encodeList (items : List Bytes) : Bytes := header 0xc0 items.flatten.length ++ items.flatten

/-! ## Decoding -/

def cut (n : Nat) (b : Bytes) : Option (Bytes × Bytes) :=
  if n ≤ b.length then some (b.take n, b.drop n) else none

def readSize (w : Nat) (b : Bytes) : Option (Nat × Bytes) :=
  (cut w b).bind fun p => if Bytes.toNat p.1 < 56 ∨ p.1.head? = some 0 then none else some (Bytes.toNat p.1, p.2)

def payload (short t : Nat) (b : Bytes) : Option (Bytes × Bytes) :=
  if t < short + 56 then cut (t - short) b else (readSize (t - (short + 55)) b).bind fun p => cut p.1 p.2

def split : Bytes → Option (Kind × Bytes × Bytes)
  | [] => none
  | x :: b =>
    if x.toNat < 0x80 then some (.str, [x], b)
    else if x.toNat < 0xc0 then
      (payload 0x80 x.toNat b).bind fun p => if single p.1 then none else some (.str, p)
    else (payload 0xc0 x.toNat b).map fun p => (.list, p)

def decodeList (b : Bytes) : Option Bytes :=
  match split b with
  | some (.list, p, []) => some p
  | _ => none

def strings : Nat → Bytes → Option (List Bytes)
  | _, [] => some []
  | 0, _ :: _ => none
  | n + 1, b => match split b with
    | some (.str, c, r) => (strings n r).map (c :: ·)
    | _ => none

def takeStr (b : Bytes) : Option (Bytes × Bytes) :=
  match split b with
  | some (.str, p) => some p
  | _ => none

def takeStrings (b : Bytes) : Option (List Bytes × Bytes) :=
  match split b with
  | some (.list, c, r) => (strings c.length c).map (·, r)
  | _ => none

def decodeNat (w : Nat) (b : Bytes) : Option Nat :=
  if b.head? = some 0 ∨ w < b.length then none else some (Bytes.toNat b)

/-! ## What is encoded is read back -/

theorem cut_append (a r : Bytes) : cut a.length (a ++ r) = some (a, r) := by
  simp [cut]

theorem readSize_minimal (h : 56 ≤ n) (r : Bytes) :
    readSize (Bytes.width n) (Bytes.minimal n ++ r) = some (n, r) := by
  have hc := cut_append (Bytes.minimal n) r
  rw [Bytes.length_minimal] at hc
  have hz : (Bytes.minimal n).head? ≠ some 0 := by
    intro h0
    obtain ⟨b, hb⟩ : ∃ b, Bytes.minimal n = 0 :: b := by
      cases hm : Bytes.minimal n with
      | nil => rw [hm] at h0; simp at h0
      | cons x b => rw [hm] at h0; simp at h0; exact ⟨b, by rw [h0]⟩
    exact Bytes.head_minimal hb rfl
  rw [readSize, hc, Option.bind_some, if_neg, Bytes.toNat_minimal]
  rw [Bytes.toNat_minimal, not_or]
  exact ⟨by omega, hz⟩

theorem payload_header (short : Nat) (hs : short ≤ 0xc0) (hc : c.length < 2 ^ 64) (r : Bytes) :
    ∃ x h, header short c.length = x :: h ∧ short ≤ x.toNat ∧ x.toNat < short + 64 ∧
      payload short x.toNat (h ++ c ++ r) = some (c, r) := by
  unfold header
  split
  · rename_i hlt
    have hx : (UInt8.ofNat (short + c.length)).toNat = short + c.length := by
      rw [UInt8.toNat_ofNat']; omega
    refine ⟨_, [], rfl, by omega, by omega, ?_⟩
    rw [hx, payload, if_pos (by omega), Nat.add_sub_cancel_left, nil_append, cut_append]
  · rename_i hge
    have hw : Bytes.width c.length ≤ 8 := Bytes.width_le (by omega)
    have hpos : 0 < Bytes.width c.length := Bytes.width_pos (by omega)
    have hx : (UInt8.ofNat (short + 55 + Bytes.width c.length)).toNat = short + 55 + Bytes.width c.length := by
      rw [UInt8.toNat_ofNat']; omega
    refine ⟨_, _, rfl, by omega, by omega, ?_⟩
    rw [hx, payload, if_neg (by omega), Nat.add_sub_cancel_left, append_assoc,
      readSize_minimal (by omega), Option.bind_some, cut_append]

theorem single_cases (h : single b = true) : ∃ x : UInt8, b = [x] ∧ x.toNat < 0x80 := by
  match b, h with
  | [x], h => exact ⟨x, rfl, by simpa [single] using h⟩

theorem split_encodeStr (hb : b.length < 2 ^ 64) (r : Bytes) : split (encodeStr b ++ r) = some (.str, b, r) := by
  unfold encodeStr
  split
  · rename_i h
    obtain ⟨x, rfl, hx⟩ := single_cases h
    simp only [singleton_append, split, if_pos hx]
  · rename_i h
    obtain ⟨x, t, ht, hlo, hhi, hp⟩ := payload_header 0x80 (by decide) hb r
    rw [ht, cons_append, cons_append, split, if_neg (by omega), if_pos (by omega), hp]
    simp [h]

theorem split_encodeList (h : items.flatten.length < 2 ^ 64) (r : Bytes) :
    split (encodeList items ++ r) = some (.list, items.flatten, r) := by
  unfold encodeList
  obtain ⟨x, t, ht, hlo, hhi, hp⟩ := payload_header 0xc0 (by decide) h r
  rw [ht, cons_append, cons_append, split, if_neg (by omega), if_neg (by omega), hp]
  rfl

theorem decodeList_encodeList (h : items.flatten.length < 2 ^ 64) :
    decodeList (encodeList items) = some items.flatten := by
  have := split_encodeList h []
  rw [append_nil] at this
  rw [decodeList, this]

theorem encodeStr_ne_nil (b : Bytes) : encodeStr b ≠ [] := by
  unfold encodeStr
  split
  · rename_i h; obtain ⟨x, rfl, _⟩ := single_cases h; simp
  · unfold header; split <;> simp

theorem length_le_encodeStr (b : Bytes) : b.length ≤ (encodeStr b).length := by
  unfold encodeStr
  split
  · exact Nat.le_refl _
  · rw [length_append]; omega

theorem strings_encodeStr : ∀ {l : List Bytes} {n : Nat}, (∀ b ∈ l, b.length < 2 ^ 64) → l.length ≤ n →
    strings n (l.map encodeStr).flatten = some l
  | [], n, _, _ => by cases n <;> rfl
  | b :: l, 0, _, hn => absurd hn (by simp)
  | b :: l, n + 1, hl, hn => by
    have hb := split_encodeStr (hl b (by simp)) (l.map encodeStr).flatten
    have ih : strings n (l.map encodeStr).flatten = some l := strings_encodeStr (fun c hc => hl c (by simp [hc])) (by simpa using hn)
    rw [map_cons, flatten_cons]
    cases he : encodeStr b ++ (l.map encodeStr).flatten with
    | nil => exact absurd (append_eq_nil_iff.mp he).1 (encodeStr_ne_nil b)
    | cons y t =>
      rw [he] at hb
      rw [strings, hb]
      · simp only [ih, Option.map_some]
      · exact cons_ne_nil y t

theorem takeStr_encodeStr (hb : b.length < 2 ^ 64) (r : Bytes) : takeStr (encodeStr b ++ r) = some (b, r) := by
  rw [takeStr, split_encodeStr hb]

theorem length_le_encodeStrings : ∀ l : List Bytes, l.length ≤ (l.map encodeStr).flatten.length
  | [] => Nat.le_refl 0
  | b :: l => by
    have hb : 0 < (encodeStr b).length := length_pos_iff.mpr (encodeStr_ne_nil b)
    have ih := length_le_encodeStrings l
    simp only [map_cons, flatten_cons, length_append, length_cons]
    omega

theorem mem_length_le (h : b ∈ l) : b.length ≤ (l.map encodeStr).flatten.length := by
  have hm := sublist_flatten_of_mem (mem_map_of_mem (f := encodeStr) h)
  exact Nat.le_trans (length_le_encodeStr b) hm.length_le

theorem takeStrings_encodeList (hl : (l.map encodeStr).flatten.length < 2 ^ 64) (r : Bytes) :
    takeStrings (encodeList (l.map encodeStr) ++ r) = some (l, r) := by
  have hs : strings (l.map encodeStr).flatten.length (l.map encodeStr).flatten = some l :=
    strings_encodeStr (fun b hb => Nat.lt_of_le_of_lt (mem_length_le hb) hl) (length_le_encodeStrings l)
  rw [takeStrings, split_encodeList hl]
  simp only [hs, Option.map_some]

theorem decodeNat_minimal (h : n < 256 ^ w) : decodeNat w (Bytes.minimal n) = some n := by
  have hw := Bytes.width_le h
  have hz : (Bytes.minimal n).head? ≠ some 0 := by
    cases hm : Bytes.minimal n with
    | nil => simp
    | cons x b => simpa using Bytes.head_minimal hm
  rw [decodeNat, if_neg, Bytes.toNat_minimal]
  rw [Bytes.length_minimal, not_or]
  exact ⟨hz, by omega⟩

/-! ## What is read lies in the input -/

theorem cut_length (h : cut n b = some p) : p.1.length + p.2.length = b.length := by
  unfold cut at h
  split at h
  · rename_i hn
    obtain rfl := Option.some.inj h
    simp only [length_take, length_drop]
    omega
  · cases h

theorem payload_length (h : payload short t b = some p) : p.1.length + p.2.length ≤ b.length := by
  unfold payload at h
  split at h
  · exact Nat.le_of_eq (cut_length h)
  · simp only [readSize, Option.bind_eq_some_iff] at h
    obtain ⟨q, ⟨r, hr, hq⟩, hp⟩ := h
    have hr' := cut_length hr
    have hp' := cut_length hp
    split at hq
    · cases hq
    · obtain rfl := Option.some.inj hq
      simp only at hp'
      omega

theorem split_length : ∀ {b : Bytes} {k : Kind} {p : Bytes × Bytes}, split b = some (k, p) →
    p.1.length + p.2.length ≤ b.length
  | x :: b, k, p, h => by
    simp only [split] at h
    split at h
    · obtain ⟨-, rfl⟩ := Prod.mk.inj (Option.some.inj h)
      simp only [length_cons, length_nil]
      omega
    · split at h
      · simp only [Option.bind_eq_some_iff] at h
        obtain ⟨q, hq, h⟩ := h
        have := payload_length hq
        split at h
        · cases h
        · obtain ⟨-, rfl⟩ := Prod.mk.inj (Option.some.inj h)
          rw [length_cons]
          omega
      · simp only [Option.map_eq_some_iff] at h
        obtain ⟨q, hq, h⟩ := h
        have := payload_length hq
        obtain ⟨-, rfl⟩ := Prod.mk.inj h
        rw [length_cons]
        omega

theorem strings_length : ∀ {n : Nat} {b : Bytes} {l : List Bytes}, strings n b = some l → l.flatten.length ≤ b.length
  | _, [], l, h => by
    rw [strings] at h
    obtain rfl := Option.some.inj h
    exact Nat.le_refl 0
  | 0, _ :: _, l, h => by cases h
  | n + 1, x :: b, l, h => by
    rw [strings] at h
    · split at h
      · rename_i c r hs
        obtain ⟨m, hm, rfl⟩ := Option.map_eq_some_iff.mp h
        have h1 := split_length hs
        have h2 := strings_length hm
        simp only at h1
        rw [flatten_cons, length_append]
        omega
      · cases h
    · exact cons_ne_nil x b

theorem takeStr_length (h : takeStr b = some p) : p.1.length + p.2.length ≤ b.length := by
  unfold takeStr at h
  split at h
  · rename_i q hs
    obtain rfl := Option.some.inj h
    exact split_length hs
  · cases h

theorem takeStrings_length {p : List Bytes × Bytes} (h : takeStrings b = some p) :
    p.1.flatten.length + p.2.length ≤ b.length := by
  unfold takeStrings at h
  split at h
  · rename_i c r hs
    obtain ⟨l, hl, rfl⟩ := Option.map_eq_some_iff.mp h
    have h1 := split_length hs
    have h2 := strings_length hl
    simp only at h1 ⊢
    omega
  · cases h

theorem decodeList_length (h : decodeList b = some c) : c.length ≤ b.length := by
  unfold decodeList at h
  split at h
  · rename_i p hs
    obtain rfl := Option.some.inj h
    have := split_length hs
    simp only at this
    omega
  · cases h

/-! ## An encoding determines its value -/

theorem encodeStr_append_inj {a r s : Bytes} (ha : a.length < 2 ^ 64) (hb : b.length < 2 ^ 64)
    (h : encodeStr a ++ r = encodeStr b ++ s) : a = b ∧ r = s := by
  have h1 := split_encodeStr ha r
  rw [h, split_encodeStr hb s] at h1
  simp only [Option.some.injEq, Prod.mk.injEq, true_and] at h1
  exact ⟨h1.1.symm, h1.2.symm⟩

theorem width_mono {b : Nat} (h : a ≤ b) : Bytes.width a ≤ Bytes.width b :=
  Bytes.width_le (Nat.lt_of_le_of_lt h (Bytes.lt_pow_width b))

theorem header_length_mono (short : Nat) {b : Nat} (h : a ≤ b) : (header short a).length ≤ (header short b).length := by
  have hw := width_mono h
  unfold header
  by_cases ha : a < 56
  · rw [if_pos ha]
    split
    · simp
    · simp
  · rw [if_neg ha, if_neg (by omega)]
    simp only [length_cons, Bytes.length_minimal]
    omega

theorem encodeList_inj {m : List Bytes} (h : encodeList l = encodeList m) : l.flatten = m.flatten := by
  have hlen := congrArg List.length h
  simp only [encodeList, length_append] at hlen
  have heq : l.flatten.length = m.flatten.length := by
    rcases Nat.lt_trichotomy l.flatten.length m.flatten.length with hlt | heq | hgt
    · have := header_length_mono 0xc0 (Nat.le_of_lt hlt)
      omega
    · exact heq
    · have := header_length_mono 0xc0 (Nat.le_of_lt hgt)
      omega
  rw [encodeList, encodeList, heq] at h
  exact append_cancel_left h

theorem encodeStrings_append_inj : ∀ {l m : List Bytes} {r s : Bytes}, l.length = m.length →
    (∀ b ∈ l, b.length < 2 ^ 64) → (∀ b ∈ m, b.length < 2 ^ 64) →
    (l.map encodeStr).flatten ++ r = (m.map encodeStr).flatten ++ s → l = m ∧ r = s
  | [], [], _, _, _, _, _, h => ⟨rfl, by simpa using h⟩
  | a :: l, b :: m, r, s, hlen, hl, hm, h => by
    simp only [map_cons, flatten_cons, append_assoc] at h
    obtain ⟨hab, ht⟩ := encodeStr_append_inj (hl a (by simp)) (hm b (by simp)) h
    obtain ⟨hlm, hrs⟩ := encodeStrings_append_inj (Nat.succ.inj hlen) (fun c hc => hl c (by simp [hc]))
      (fun c hc => hm c (by simp [hc])) ht
    exact ⟨by rw [hab, hlm], hrs⟩

end Rlp
