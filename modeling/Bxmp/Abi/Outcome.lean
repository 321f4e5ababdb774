import Bxmp.Abi.NewType

namespace Bxmp

/-- How a call of `NewType` ends, forgetting the `Type` and the text of the error. -/
inductive Outcome
  | ok
  | typeParse
  | variableSize
  | unsupportedArgType
  | panic (p : Panic)
  deriving DecidableEq, Repr

/-- The way a call that returned `r` ended. -/
def NewTypeResult.outcome : NewTypeResult → Outcome
  | .ok _ => .ok
  | .error (.typeParse _) => .typeParse
  | .error (.variableSize _) => .variableSize
  | .error (.unsupportedArgType _) => .unsupportedArgType
  | .panic p => .panic p

/-- The cases of the switch on `varType`. -/
def varTypes : List (List UInt8) :=
  [bytesOf "int", bytesOf "uint", bytesOf "bool", bytesOf "address", bytesOf "string",
    bytesOf "bytes", bytesOf "function"]

/-- How `NewType` ends on the name `res[1]`, read off the match of `typeRegex` in it: no
match panics, a size that `Atoi` rejects is an error, and otherwise the switch on the
letters decides. -/
def nameOutcome (name : List UInt8) : Outcome :=
  match typeMatch name with
  | none => .panic .indexOutOfRange
  | some parsedType =>
    match varSizeOf parsedType with
    | .error _ => .variableSize
    | .ok _ => if parsedType.getD 1 [] ∈ varTypes then .ok else .unsupportedArgType

section

variable {u : AbiType}

theorem setVarType_outcome (typ : AbiType) (t varType : List UInt8) (varSize : Int) :
    (setVarType (some (.ok u)) typ t varType varSize).map NewTypeResult.outcome =
      some (if varType ∈ varTypes then .ok else .unsupportedArgType) := by
  unfold setVarType
  simp only [apply_ite (Option.map NewTypeResult.outcome), Option.map_some', NewTypeResult.outcome,
    apply_ite NewTypeResult.outcome, ite_self, varTypes, List.mem_cons, List.mem_singleton,
    List.not_mem_nil, or_false, ite_or, apply_ite some]

/-- How `setBaseType` ends depends on the name alone, not on `typ` or `t`. -/
theorem setBaseType_outcome (typ : AbiType) (t name : List UInt8) :
    (setBaseType (some (.ok u)) typ t name).map NewTypeResult.outcome = some (nameOutcome name) := by
  unfold setBaseType nameOutcome
  rw [findStringSubmatch_typeRegex]
  cases typeMatch name with
  | none => rfl
  | some parsedType =>
    dsimp only
    cases varSizeOf parsedType with
    | error e => rfl
    | ok varSize => exact setVarType_outcome _ _ _ _

theorem setElem_outcome (typ : AbiType) {t name : List UInt8} (hl : name.length ≤ t.length) :
    (setElem (setBaseType (some (.ok u)) .zero name name) (some (.ok u)) typ t name).map
      NewTypeResult.outcome = some (nameOutcome name) := by
  have hx := setBaseType_outcome (u := u) .zero name name
  obtain ⟨x, hsome⟩ := Option.isSome_iff_exists.mp (setBaseType_isSome (.ok u) .zero name name)
  rw [hsome] at hx ⊢
  cases x with
  | ok sliceType =>
    simp only [setElem, Option.some_bind, Nat.not_lt.mpr hl, if_false]
    split_ifs
    · exact hx
    · rw [setBaseType_outcome]
  | error e => exact hx
  | panic p => exact hx

end

theorem newType_outcome (t : List UInt8) : (newType t).outcome = nameOutcome (firstName t) := by
  cases h : fullTypeMatch t with
  | none => rw [newType_of_none h, (fullTypeMatch_eq_none_iff t).mp h]; rfl
  | some res =>
    obtain ⟨-, -, h0⟩ := name_of_fullTypeMatch h
    have hl : (firstName t).length ≤ t.length :=
      ((List.takeWhile_sublist _).trans (List.dropWhile_sublist _)).length_le
    apply Option.some.inj
    rw [← Option.map_some', newType_of_match h]
    split_ifs
    · exact setElem_outcome _ hl
    · exact setElem_outcome _ hl
    · exact setBaseType_outcome _ _ _

theorem nameOutcome_ne_typeParse (name : List UInt8) : nameOutcome name ≠ .typeParse := by
  unfold nameOutcome
  split
  · simp
  · split
    · simp
    · split_ifs <;> simp

/-- The `res[0] == ""` case of `NewType` is dead. -/
theorem newType_ne_typeParse (t e : List UInt8) : newType t ≠ .error (.typeParse e) := fun h =>
  nameOutcome_ne_typeParse (firstName t) (by rw [← newType_outcome, h]; rfl)

theorem nameOutcome_eq_panic_iff (name : List UInt8) (p : Panic) :
    nameOutcome name = .panic p ↔ p = .indexOutOfRange ∧ ∀ b ∈ name, isLetter b = false := by
  unfold nameOutcome typeMatch
  cases h : name.dropWhile (fun c => !isLetter c) with
  | nil =>
    have hn := List.dropWhile_eq_nil_iff.mp h
    exact ⟨fun hp => ⟨(Outcome.panic.inj hp).symm, fun b hb => by simpa using hn b hb⟩,
      fun ⟨hp, _⟩ => hp ▸ rfl⟩
  | cons c r =>
    have hc := dropWhile_not_eq_cons h
    have hmem : c ∈ name := (List.dropWhile_sublist _).subset (h ▸ List.mem_cons_self c r)
    simp only [iff_false_intro (fun hn : ∀ b ∈ name, isLetter b = false => by simp [hn c hmem] at hc),
      and_false, iff_false]
    split
    · simp
    · split_ifs <;> simp

/-- `NewType(t)` panics exactly when the first alphanumeric run of `t` has no letter. -/
theorem newType_panic_iff (t : List UInt8) (p : Panic) :
    newType t = .panic p ↔ p = .indexOutOfRange ∧ ∀ b ∈ firstName t, isLetter b = false := by
  rw [← nameOutcome_eq_panic_iff, ← newType_outcome]
  rcases newType t with _ | (_ | _ | _) | _ <;> simp [NewTypeResult.outcome]

/-- On the empty string `NewType` panics at the index `[0]`. -/
theorem newType_empty_panics : newType (bytesOf "") = .panic .indexOutOfRange := rfl

/-- `NewType(t)` ends as `NewType` on the first alphanumeric run of `t` alone. -/
theorem newType_outcome_firstName (t : List UInt8) :
    (newType t).outcome = (newType (firstName t)).outcome := by
  rw [newType_outcome, newType_outcome, firstName_firstName]

theorem exists_ok_iff_outcome (r : NewTypeResult) : (∃ typ, r = .ok typ) ↔ r.outcome = .ok := by
  rcases r with _ | (_ | _ | _) | _ <;> simp [NewTypeResult.outcome]

/-- `NewType(t)` returns a type exactly when its first name is known and its size parses. -/
theorem newType_ok_iff (t : List UInt8) :
    (∃ typ, newType t = .ok typ) ↔
      ∃ parsedType, typeMatch (firstName t) = some parsedType ∧ parsedType.getD 1 [] ∈ varTypes ∧
        ∃ varSize, varSizeOf parsedType = .ok varSize := by
  rw [exists_ok_iff_outcome, newType_outcome, nameOutcome]
  cases typeMatch (firstName t) with
  | none => simp
  | some parsedType =>
    simp only [Option.some.injEq, exists_eq_left']
    cases varSizeOf parsedType with
    | error e => simp
    | ok varSize => split_ifs <;> simp_all

theorem varSizeOf_of_xGroup {name : List UInt8} {parsedType : List (List UInt8)}
    (h : typeMatch name = some parsedType) (hx : parsedType.getD 4 [] ≠ []) :
    ∃ e, varSizeOf parsedType = .error e := by
  unfold typeMatch at h
  split at h
  · cases h
  · cases h
    simp only [typeGroups] at hx ⊢
    generalize hd : List.takeWhile isDigit _ = d at hx ⊢
    have hdig : ∀ b ∈ d, isDigit b := fun _ hb => List.mem_takeWhile_imp (hd ▸ hb)
    split_ifs at hx ⊢ with hd0
    · simp at hx
    · cases hxg : xGroup (List.dropWhile isDigit _) with
      | none => simp [hxg] at hx
      | some e =>
        have hstop := atoi_error_of_stop (e := e) hd0 hdig (c := 120) (by decide)
        simp only [hxg, varSizeOf, List.getD_cons_succ, List.getD_cons_zero, List.length_pos.mpr hd0,
          if_true]
        rcases ha : atoi (d ++ 120 :: e) with ⟨v, _ | err⟩
        · simp [ha] at hstop
        · exact ⟨err, rfl⟩

/-- A size with an `x` part, as in `fixed128x128[2]`, is always rejected. -/
theorem newType_of_xGroup {t : List UInt8} {parsedType : List (List UInt8)}
    (h : typeMatch (firstName t) = some parsedType) (hx : parsedType.getD 4 [] ≠ []) :
    ∃ e, newType t = .error (.variableSize e) := by
  have ho := newType_outcome t
  obtain ⟨e, he⟩ := varSizeOf_of_xGroup h hx
  rw [nameOutcome, h] at ho
  simp only [he] at ho
  rcases hr : newType t with _ | (_ | e' | _) | _ <;> simp [hr, NewTypeResult.outcome] at ho
  exact ⟨e', rfl⟩

theorem newType_fixed_rejected :
    typeMatch (firstName (bytesOf "fixed128x128[2]")) =
        some [bytesOf "fixed128x128", bytesOf "fixed", bytesOf "128x128", bytesOf "128",
          bytesOf "x128", bytesOf "128"] ∧
      ∃ e, newType (bytesOf "fixed128x128[2]") = .error (.variableSize e) :=
  ⟨rfl, newType_of_xGroup rfl (by decide)⟩

end Bxmp
