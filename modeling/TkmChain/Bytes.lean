import Mathlib

/-!
# Byte strings

Fixed-width and minimal big-endian encodings of naturals, the number a byte
string denotes, and cutting a string into equal chunks.
-/

abbrev Bytes := List UInt8

namespace Bytes

/-- The `w` low bytes of `n`, most significant first. -/
def be : Nat → Nat → Bytes
  | 0, _ => []
  | w + 1, n => UInt8.ofNat (n / 256 ^ w) :: be w n

def toNat (b : Bytes) : Nat := b.foldl (fun n x => n * 256 + x.toNat) 0

/-- The number of bytes of `n` without leading zeros. -/
def width (n : Nat) : Nat := if n = 0 then 0 else n.log2 / 8 + 1

def minimal (n : Nat) : Bytes := be (width n) n

def ofText (s : String) : Bytes := s.toList.map fun c => UInt8.ofNat c.toNat

@[simp] theorem length_be : ∀ w n, (be w n).length = w
  | 0, _ => rfl
  | w + 1, n => by simp [be, length_be w n]

theorem toNat_snoc (b : Bytes) (x : UInt8) : toNat (b ++ [x]) = toNat b * 256 + x.toNat := by
  simp [toNat]

theorem toNat_append (a b : Bytes) : toNat (a ++ b) = toNat a * 256 ^ b.length + toNat b := by
  induction b using List.reverseRecOn with
  | nil => simp [toNat]
  | append_singleton b x ih =>
    rw [← List.append_assoc, toNat_snoc, toNat_snoc, ih, List.length_append, List.length_singleton, pow_succ]
    ring

theorem toNat_cons (x : UInt8) (b : Bytes) : toNat (x :: b) = x.toNat * 256 ^ b.length + toNat b := by
  have := toNat_append [x] b
  simpa [toNat] using this

theorem toNat_be : ∀ w n, toNat (be w n) = n % 256 ^ w
  | 0, n => by simp [be, toNat, Nat.mod_one]
  | w + 1, n => by
    have h256 : (2 : Nat) ^ 8 = 256 := rfl
    rw [be, toNat_cons, length_be, toNat_be w n, UInt8.toNat_ofNat', h256, pow_succ, Nat.mod_mul]
    ring

theorem be_inj (ha : a < 256 ^ w) (hb : b < 256 ^ w) (h : be w a = be w b) : a = b := by
  have := congrArg toNat h
  rwa [toNat_be, toNat_be, Nat.mod_eq_of_lt ha, Nat.mod_eq_of_lt hb] at this

theorem toNat_lt : ∀ b : Bytes, toNat b < 256 ^ b.length
  | [] => by simp [toNat]
  | x :: b => by
    have hx : x.toNat < 256 := x.toNat_lt
    have hb := toNat_lt b
    rw [toNat_cons, List.length_cons, pow_succ]
    have := Nat.mul_le_mul_right (256 ^ b.length) (Nat.le_of_lt_succ hx)
    omega

theorem be_toNat : ∀ b : Bytes, be b.length (toNat b) = b
  | [] => rfl
  | x :: b => by
    have hb := toNat_lt b
    have hpos : 0 < 256 ^ b.length := Nat.pow_pos (by decide)
    rw [toNat_cons, List.length_cons, be]
    congr 1
    · rw [Nat.mul_comm, Nat.mul_add_div hpos, Nat.div_eq_of_lt hb]; simp
    · have key : ∀ w c n, be w (c * 256 ^ w + n) = be w n := by
        intro w
        induction w with
        | zero => intros; rfl
        | succ w ih =>
          intro c n
          have hw : 0 < 256 ^ w := Nat.pow_pos (by decide)
          rw [be, be, pow_succ, ← Nat.mul_assoc, Nat.mul_comm _ 256, ← Nat.mul_assoc, ih,
            Nat.mul_comm _ (256 ^ w), Nat.mul_add_div hw]
          congr 1
          apply UInt8.toNat_inj.mp
          simp only [UInt8.toNat_ofNat']
          omega
      rw [key, be_toNat b]

theorem lt_pow_width (n : Nat) : n < 256 ^ width n := by
  unfold width
  split
  · rename_i h; simp [h]
  · have h := Nat.lt_log2_self (n := n)
    have h256 : (256 : Nat) = 2 ^ 8 := rfl
    rw [h256, ← Nat.pow_mul]
    exact lt_of_lt_of_le h (Nat.pow_le_pow_right (by decide) (by omega))

@[simp] theorem length_minimal (n : Nat) : (minimal n).length = width n := length_be _ _

@[simp] theorem toNat_minimal (n : Nat) : toNat (minimal n) = n := by
  rw [minimal, toNat_be, Nat.mod_eq_of_lt (lt_pow_width n)]

theorem minimal_inj (h : minimal a = minimal b) : a = b := by
  have := congrArg toNat h
  simpa using this

theorem width_le (h : n < 256 ^ w) : width n ≤ w := by
  unfold width
  split
  · exact Nat.zero_le _
  · rename_i hn
    have h1 : 2 ^ n.log2 ≤ n := Nat.log2_self_le hn
    have h256 : (256 : Nat) ^ w = 2 ^ (8 * w) := by rw [Nat.pow_mul]
    have h2 : 2 ^ n.log2 < 2 ^ (8 * w) := by omega
    have := (Nat.pow_lt_pow_iff_right (by decide : 1 < 2)).mp h2
    omega

theorem width_pos (h : n ≠ 0) : 0 < width n := by
  simp [width, h]

theorem head_minimal (h : minimal n = x :: b) : x ≠ 0 := by
  rintro rfl
  have hlen := congrArg List.length h
  have hval := congrArg toNat h
  rw [length_minimal, List.length_cons] at hlen
  rw [toNat_minimal, toNat_cons] at hval
  have hb := toNat_lt b
  have hn : n < 256 ^ b.length := by simp at hval; omega
  have := width_le hn
  omega

end Bytes
