import RatatoskrTelegram.Limiter

/-!
# Checked arithmetic

An operator of a machine integer has a value only where the exact result fits the
type. A computation written with these operators ends in `none` where the code
would panic or wrap.
-/

namespace RatatoskrTelegram

/-- The exact result `n` as a value of a type with these bounds. -/
def fits (low high n : ℤ) : Option ℤ := if low ≤ n ∧ n ≤ high then some n else none

def asI64 : ℤ → Option ℤ := fits i64Min i64Max

def asU64 (n : ℤ) : Option ℕ := (fits 0 u64Max n).map Int.toNat

def asU32 (n : ℤ) : Option ℕ := (fits 0 u32Max n).map Int.toNat

theorem fits_of_mem {low high n : ℤ} (hlow : low ≤ n) (hhigh : n ≤ high) :
    fits low high n = some n := by
  simp [fits,hlow,hhigh]

theorem asI64_of_mem {n : ℤ} (hlow : i64Min ≤ n) (hhigh : n ≤ i64Max) : asI64 n = some n :=
  fits_of_mem hlow hhigh

theorem asU64_of_le {n : ℕ} (h : n ≤ u64Max) : asU64 n = some n := by
  have hfit : fits 0 u64Max n = some (n : ℤ) := fits_of_mem (by omega) (by omega)
  simp [asU64,hfit]

theorem asU32_of_le {n : ℕ} (h : n ≤ u32Max) : asU32 n = some n := by
  have hfit : fits 0 u32Max n = some (n : ℤ) := fits_of_mem (by omega) (by omega)
  simp [asU32,hfit]

theorem asU32_sub {m n : ℕ} (hle : n ≤ m) (hmax : m ≤ u32Max) :
    asU32 ((m : ℤ) - n) = some (m - n) := by
  have hcast : ((m : ℤ) - n) = ((m - n : ℕ) : ℤ) := by omega
  rw [hcast]
  exact asU32_of_le (by omega)

theorem asU64_sub {m n : ℕ} (hle : n ≤ m) (hmax : m ≤ u64Max) :
    asU64 ((m : ℤ) - n) = some (m - n) := by
  have hcast : ((m : ℤ) - n) = ((m - n : ℕ) : ℤ) := by omega
  rw [hcast]
  exact asU64_of_le (by omega)

end RatatoskrTelegram
