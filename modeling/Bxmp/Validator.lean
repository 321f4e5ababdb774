import Mathlib

namespace Bxmp

/-- `common.AddressLength`. -/
def addressLength : Nat := 20

/-- `common.Address`, an array of `AddressLength` bytes. -/
structure Address where
  bytes : List UInt8
  length_bytes : bytes.length = addressLength

@[ext] theorem Address.ext {a b : Address} (h : a.bytes = b.bytes) : a = b := by
  cases a
  cases b
  cases h
  rfl

instance : DecidableEq Address := fun a b =>
  decidable_of_iff (a.bytes = b.bytes) ⟨Address.ext, fun h => h ▸ rfl⟩

/-- The zero address, which `make` fills a new slice with. -/
def Address.zero : Address := ⟨List.replicate addressLength 0, List.length_replicate _ _⟩

/-- Go's `copy(dst, src)`: the first `min(len(dst), len(src))` bytes of `dst` are
overwritten by those of `src`. -/
def goCopy (dst src : List UInt8) : List UInt8 := src.take dst.length ++ dst.drop src.length

theorem length_goCopy (dst src : List UInt8) : (goCopy dst src).length = dst.length := by
  simp only [goCopy, List.length_append, List.length_take, List.length_drop]
  omega

/-- `copy(a[:], src)`. -/
def Address.copy (a : Address) (src : List UInt8) : Address :=
  ⟨goCopy a.bytes src, (length_goCopy _ _).trans a.length_bytes⟩

/-- `ExtractValidators`: `make` a slice of `len(extraData) / AddressLength` zero
addresses, then copy `extraData[i*AddressLength:]` into the `i`-th for each `i`. -/
def extractValidators (extraData : List UInt8) : List Address :=
  let n := extraData.length / addressLength
  (List.range n).foldl (fun addrs i => addrs.modify (·.copy (extraData.drop (i * addressLength))) i)
    (List.replicate n Address.zero)

/-- `ValidExtraData`. -/
def validExtraData (extraData : List UInt8) : Bool := extraData.length % addressLength == 0

/-- The validator-set encoding: the addresses' bytes one after another. -/
def concatAddresses (as : List Address) : List UInt8 := as.flatMap Address.bytes

/-- The address the loop writes at index `i`. -/
def chunkAt (extraData : List UInt8) (i : Nat) : Address :=
  Address.zero.copy (extraData.drop (i * addressLength))

theorem modify_length_append {α : Type} (f : α → α) (a : α) (r : List α) :
    ∀ l : List α, (l ++ a :: r).modify f l.length = l ++ f a :: r
  | [] => List.modify_zero_cons f a r
  | b :: l => by
    rw [List.cons_append, List.length_cons, List.modify_succ_cons, modify_length_append f a r l]
    rfl

/-- After `k` rounds the loop has written the first `k` addresses and left the rest zero. -/
theorem extractValidators_loop (extraData : List UInt8) {k : Nat}
    (hk : k ≤ extraData.length / addressLength) :
    (List.range k).foldl
        (fun addrs i => addrs.modify (·.copy (extraData.drop (i * addressLength))) i)
        (List.replicate (extraData.length / addressLength) Address.zero) =
      (List.range k).map (chunkAt extraData) ++
        List.replicate (extraData.length / addressLength - k) Address.zero := by
  induction k with
  | zero => simp
  | succ k ih =>
    have hrest : extraData.length / addressLength - k =
        extraData.length / addressLength - (k + 1) + 1 := by omega
    rw [List.range_succ, List.foldl_append, ih (by omega), hrest, List.replicate_succ,
      List.foldl_cons, List.foldl_nil]
    have hmod := modify_length_append (·.copy (extraData.drop (k * addressLength))) Address.zero
      (List.replicate (extraData.length / addressLength - (k + 1)) Address.zero)
      ((List.range k).map (chunkAt extraData))
    rw [List.length_map, List.length_range] at hmod
    rw [hmod]
    simp [chunkAt]

/-- `ExtractValidators` reads address `i` off the `i`-th slot. -/
theorem extractValidators_eq_map (extraData : List UInt8) :
    extractValidators extraData =
      (List.range (extraData.length / addressLength)).map (chunkAt extraData) := by
  simpa using extractValidators_loop extraData le_rfl

theorem chunkAt_bytes {extraData : List UInt8} {i : Nat}
    (hi : (i + 1) * addressLength ≤ extraData.length) :
    (chunkAt extraData i).bytes = (extraData.drop (i * addressLength)).take addressLength := by
  rw [Nat.succ_mul] at hi
  simp [chunkAt, Address.copy, Address.zero, goCopy]
  omega

theorem concatAddresses_cons (a : Address) (as : List Address) :
    concatAddresses (a :: as) = a.bytes ++ concatAddresses as := rfl

theorem length_concatAddresses (as : List Address) :
    (concatAddresses as).length = as.length * addressLength := by
  induction as with
  | nil => rfl
  | cons a as ih =>
    simp only [concatAddresses, List.flatMap_cons, List.length_append, a.length_bytes] at ih ⊢
    rw [ih, List.length_cons, Nat.succ_mul]
    omega

theorem concatAddresses_map_chunkAt {extraData : List UInt8} :
    ∀ {k : Nat}, k * addressLength ≤ extraData.length →
      concatAddresses ((List.range k).map (chunkAt extraData)) = extraData.take (k * addressLength)
  | 0, _ => rfl
  | k + 1, hk => by
    rw [List.range_succ, List.map_append, concatAddresses, List.flatMap_append, ← concatAddresses,
      concatAddresses_map_chunkAt (by rw [Nat.succ_mul] at hk; omega)]
    simp only [List.map_cons, List.map_nil, List.flatMap_cons, List.flatMap_nil, List.append_nil,
      chunkAt_bytes hk]
    rw [← List.take_add, Nat.succ_mul]

/-- `ExtractValidators` drops the last `len(extraData) mod AddressLength` bytes. -/
theorem concatAddresses_extractValidators (extraData : List UInt8) :
    concatAddresses (extractValidators extraData) =
      extraData.take (extraData.length - extraData.length % addressLength) := by
  have hdiv := Nat.div_add_mod extraData.length addressLength
  rw [extractValidators_eq_map, concatAddresses_map_chunkAt (by rw [Nat.mul_comm]; omega)]
  congr 1
  rw [Nat.mul_comm]
  omega

theorem chunkAt_append_succ {a : Address} {r : List UInt8} (i : Nat) :
    chunkAt (a.bytes ++ r) (i + 1) = chunkAt r i := by
  have hdrop : (a.bytes ++ r).drop ((i + 1) * addressLength) = r.drop (i * addressLength) := by
    rw [Nat.succ_mul, Nat.add_comm, ← List.drop_drop, ← a.length_bytes, List.drop_left]
  simp only [chunkAt, hdrop]

theorem chunkAt_append_zero (a : Address) (r : List UInt8) : chunkAt (a.bytes ++ r) 0 = a := by
  ext
  rw [chunkAt_bytes (by simp [a.length_bytes])]
  simp [← a.length_bytes]

/-- `ExtractValidators` decodes the concatenation of any address list to that list. -/
theorem extractValidators_concatAddresses (as : List Address) :
    extractValidators (concatAddresses as) = as := by
  induction as with
  | nil => rfl
  | cons a as ih =>
    have hn : (concatAddresses (a :: as)).length / addressLength = as.length + 1 := by
      rw [length_concatAddresses, List.length_cons, Nat.mul_div_cancel _ (by decide)]
    have hn' : (concatAddresses as).length / addressLength = as.length := by
      rw [length_concatAddresses, Nat.mul_div_cancel _ (by decide)]
    rw [extractValidators_eq_map, hn'] at ih
    rw [extractValidators_eq_map, hn, List.range_succ_eq_map, List.map_cons, List.map_map,
      concatAddresses_cons, chunkAt_append_zero]
    congr 1
    conv_rhs => rw [← ih]
    exact List.map_congr_left fun i _ => chunkAt_append_succ i

/-- Validator extra data: the fixed-width encoding and `ExtractValidators` invert each other. -/
theorem extraData_codec :
    (∀ as : List Address, extractValidators (concatAddresses as) = as) ∧
    (∀ b : List UInt8, concatAddresses (extractValidators b) = b ↔ validExtraData b) ∧
    (∀ b : List UInt8,
      concatAddresses (extractValidators b) = b.take (b.length - b.length % addressLength)) ∧
    (∀ b : List UInt8, validExtraData b ↔ ∃ as, concatAddresses as = b) ∧
    (∀ b₁ b₂ : List UInt8, validExtraData b₁ → validExtraData b₂ →
      extractValidators b₁ = extractValidators b₂ → b₁ = b₂) := by
  have roundTrip : ∀ b : List UInt8, concatAddresses (extractValidators b) = b ↔ validExtraData b := by
    intro b
    rw [concatAddresses_extractValidators, List.take_eq_self_iff]
    simp only [validExtraData, beq_iff_eq, addressLength]
    omega
  refine ⟨extractValidators_concatAddresses, roundTrip, concatAddresses_extractValidators,
    fun b => ⟨fun h => ⟨_, (roundTrip b).mpr h⟩, ?_⟩, ?_⟩
  · rintro ⟨as, rfl⟩
    simp [validExtraData, length_concatAddresses]
  · intro b₁ b₂ h₁ h₂ he
    rw [← (roundTrip b₁).mpr h₁, ← (roundTrip b₂).mpr h₂, he]

end Bxmp
