import Bxmp.Abi.Type

namespace Bxmp

/-- The type `NewType("uint8")` returns. -/
def uint8Type : AbiType := ⟨false, false, 0, none, 8, uintTy, bytesOf "uint8"⟩

theorem newTypeFuel_uint8 (fuel : Nat) :
    newTypeFuel (fuel + 1) (bytesOf "uint8") = some (.ok uint8Type) := rfl

theorem newTypeFuel_name {w : List UInt8} (hne : w ≠ []) (hw : ∀ b ∈ w, isAlnum b) (fuel : Nat) :
    newTypeFuel (fuel + 1) w = setBaseType (newTypeFuel fuel (bytesOf "uint8")) .zero w w := by
  simp [newTypeFuel, findStringSubmatch_fullTypeRegex, fullTypeMatch_name hne hw, hne]

theorem setVarType_isSome (u : NewTypeResult) (typ : AbiType) (t varType : List UInt8)
    (varSize : Int) : (setVarType (some u) typ t varType varSize).isSome := by
  unfold setVarType
  simp only [apply_ite Option.isSome, Option.isSome_some, Option.isSome_map', ite_self]

theorem setBaseType_isSome (u : NewTypeResult) (typ : AbiType) (t name : List UInt8) :
    (setBaseType (some u) typ t name).isSome := by
  unfold setBaseType
  split
  · rfl
  · split
    · rfl
    · exact setVarType_isSome _ _ _ _ _

theorem setElem_isSome {elem : Option NewTypeResult} (he : elem.isSome) (u : NewTypeResult)
    (typ : AbiType) (t name : List UInt8) : (setElem elem (some u) typ t name).isSome := by
  obtain ⟨e, rfl⟩ := Option.isSome_iff_exists.mp he
  cases e with
  | ok sliceType =>
    simp only [setElem, Option.some_bind]
    split_ifs
    · rfl
    · rfl
    · exact setBaseType_isSome _ _ _ _
  | error _ => rfl
  | panic _ => rfl

/-- Three levels of budget are enough for every input. -/
theorem newTypeFuel_three_isSome (t : List UInt8) : (newTypeFuel 3 t).isSome := by
  rw [newTypeFuel]
  split
  · rfl
  · next res hres =>
    rw [findStringSubmatch_fullTypeRegex] at hres
    obtain ⟨hname, hne, -⟩ := name_of_fullTypeMatch hres
    simp only [hname, newTypeFuel_name hne (firstName_alnum t), newTypeFuel_uint8]
    split_ifs
    · exact setElem_isSome (setBaseType_isSome _ _ _ _) _ _ _ _
    · exact setElem_isSome (setBaseType_isSome _ _ _ _) _ _ _ _
    · rfl
    · exact setBaseType_isSome _ _ _ _

/-- `NewType(t)`. -/
def newType (t : List UInt8) : NewTypeResult := (newTypeFuel 3 t).get (newTypeFuel_three_isSome t)

theorem newTypeFuel_three (t : List UInt8) : newTypeFuel 3 t = some (newType t) := by
  simp [newType]

/-- A larger budget changes nothing: three levels are no cap on the recursion. -/
theorem newTypeFuel_add_three (n : Nat) (t : List UInt8) : newTypeFuel (n + 3) t = some (newType t) := by
  rw [← newTypeFuel_three, show n + 3 = n + 2 + 1 from rfl, show (3 : Nat) = 2 + 1 from rfl]
  conv_lhs => rw [newTypeFuel.eq_2]
  conv_rhs => rw [newTypeFuel.eq_2]
  cases hres : fullTypeRegex.findStringSubmatch t with
  | none => rfl
  | some res =>
    rw [findStringSubmatch_fullTypeRegex] at hres
    obtain ⟨hname, hne, -⟩ := name_of_fullTypeMatch hres
    simp only [hname, newTypeFuel_name hne (firstName_alnum t), newTypeFuel_uint8]

theorem newType_of_none {t : List UInt8} (h : fullTypeMatch t = none) :
    newType t = .panic .indexOutOfRange := by
  have ht := newTypeFuel_three t
  rw [newTypeFuel, findStringSubmatch_fullTypeRegex, h] at ht
  exact (Option.some.inj ht).symm

/-- `NewType` unfolded once on an input that `fullTypeRegex` matches. -/
theorem newType_of_match {t : List UInt8} {res : List (List UInt8)} (h : fullTypeMatch t = some res) :
    some (newType t) =
      if res.getD 3 [] ≠ [] then
        setElem (setBaseType (some (.ok uint8Type)) .zero (firstName t) (firstName t))
          (some (.ok uint8Type))
          { AbiType.zero with sliceSize := (atoi (res.getD 3 [])).1, isArray := true } t (firstName t)
      else if res.getD 2 [] ≠ [] then
        setElem (setBaseType (some (.ok uint8Type)) .zero (firstName t) (firstName t))
          (some (.ok uint8Type)) { AbiType.zero with isSlice := true, sliceSize := -1 } t (firstName t)
      else if res.getD 0 [] = [] then some (.error (.typeParse t))
      else setBaseType (some (.ok uint8Type)) .zero t (firstName t) := by
  obtain ⟨hname, hne, -⟩ := name_of_fullTypeMatch h
  rw [← newTypeFuel_three, newTypeFuel, findStringSubmatch_fullTypeRegex, h]
  simp only [hname, newTypeFuel_name hne (firstName_alnum t), newTypeFuel_uint8]

end Bxmp
