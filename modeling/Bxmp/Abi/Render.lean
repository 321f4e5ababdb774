import Bxmp.Abi.Outcome

namespace Bxmp

/-- What `render` needs of a layer: a slice or an array has an element, and that element
renders. -/
def ElemRenders (typ : AbiType) : Prop :=
  (typ.isSlice || typ.isArray) = true → ∃ e, typ.elem = some e ∧ (render e).isSome

theorem render_isSome_of {r : AbiType} (hb : (baseName r).isSome) (he : ElemRenders r) :
    (render r).isSome := by
  cases hw : r.walksElem
  · rwa [render_of_not_walksElem hw]
  · have hsa : (r.isSlice || r.isArray) = true := by
      simp only [AbiType.walksElem, Bool.and_eq_true] at hw
      exact hw.1.1.1
    obtain ⟨e, hre, hr⟩ := he hsa
    rw [render_of_walksElem hw hre]
    simpa using hr

theorem render_isSome_of_base {r : AbiType} (hw : r.walksElem = false) (hb : (baseName r).isSome) :
    (render r).isSome := by
  rwa [render_of_not_walksElem hw]

section

variable {U : Option NewTypeResult} {typ r : AbiType} {t : List UInt8}

theorem forall_ok_ite {c : Prop} [Decidable c] {a b : Option NewTypeResult} {P : AbiType → Prop}
    (ha : ∀ r, a = some (.ok r) → P r) (hb : ∀ r, b = some (.ok r) → P r) :
    ∀ r, (if c then a else b) = some (.ok r) → P r := by
  split
  · exact ha
  · exact hb

theorem setVarType_render {varType : List UInt8} {varSize : Int} (h : ElemRenders typ)
    (hr : setVarType U typ t varType varSize = some (.ok r)) : (render r).isSome := by
  revert r
  unfold setVarType
  repeat' apply forall_ok_ite
  any_goals rintro _ ⟨⟩
  any_goals exact render_isSome_of rfl h
  all_goals
    intro r hr
    obtain ⟨x, -, hx⟩ := Option.map_eq_some'.mp hr
    cases x <;> dsimp only at hx <;> (try split at hx) <;> cases hx <;>
      exact render_isSome_of_base (by simp [AbiType.walksElem, bytesTy, fixedBytesTy, functionTy]) rfl

theorem setBaseType_render {name : List UInt8} (h : ElemRenders typ)
    (hr : setBaseType U typ t name = some (.ok r)) : (render r).isSome := by
  unfold setBaseType at hr
  split at hr
  · cases hr
  · split at hr
    · cases hr
    · refine setVarType_render ?_ hr
      split_ifs <;> exact h

theorem setElem_render {elem : Option NewTypeResult} {name : List UInt8}
    (hb : (baseName typ).isSome) (helem : ∀ e, elem = some (.ok e) → (render e).isSome)
    (hr : setElem elem U typ t name = some (.ok r)) : (render r).isSome := by
  obtain ⟨x, hx, hr⟩ := Option.bind_eq_some.mp hr
  cases x with
  | ok sliceType =>
    have hready : ∀ k, ElemRenders { typ with elem := some sliceType, stringKind := k } :=
      fun _ _ => ⟨sliceType, rfl, helem _ hx⟩
    simp only at hr
    split_ifs at hr
    · cases hr
    · cases hr
      exact render_isSome_of hb (hready _)
    · exact setBaseType_render (hready _) hr
  | error e => cases hr
  | panic p => cases hr

end

theorem newTypeFuel_render : ∀ (fuel : Nat) {t : List UInt8} {r : AbiType},
    newTypeFuel fuel t = some (.ok r) → (render r).isSome
  | 0, _, _, h => by cases h
  | fuel + 1, t, r, h => by
    rw [newTypeFuel] at h
    split at h
    · cases h
    · split_ifs at h
      · exact setElem_render (by rfl) (fun _ he => newTypeFuel_render fuel he) h
      · exact setElem_render (by rfl) (fun _ he => newTypeFuel_render fuel he) h
      · cases h
      · exact setBaseType_render (fun h => by cases h) h

/-- `pack` never dereferences a nil `Elem` of a type that `NewType` returned. -/
theorem newType_render (t : List UInt8) (typ : AbiType) (h : newType t = .ok typ) :
    (render typ).isSome :=
  newTypeFuel_render 3 (by rw [newTypeFuel_three, h])

theorem newType_render_uint8_slice :
    newType (bytesOf "uint8[]") = .ok ⟨true, false, -1, some uint8Type, 8, uintTy, bytesOf "uint8[]"⟩ ∧
      (render ⟨true, false, -1, some uint8Type, 8, uintTy, bytesOf "uint8[]"⟩).isSome :=
  ⟨rfl, newType_render (bytesOf "uint8[]") _ rfl⟩

end Bxmp
