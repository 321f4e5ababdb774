import Bxmp.Abi.Canonical

namespace Bxmp

/-- The base type named `n` with the size `v` that `Atoi` read, kept only where the name
takes a size and the size is not `0`. -/
def BaseType.ofSize (n : BaseName) (v : Nat) (hv : v < 2 ^ 63) : BaseType :=
  if h : n.sized ∧ 0 < v then ⟨n, some ⟨v, h.2, hv⟩, fun _ => h.1⟩
  else ⟨n, none, by simp⟩

@[simp]
theorem BaseType.name_ofSize (n : BaseName) {v : Nat} (hv : v < 2 ^ 63) :
    (BaseType.ofSize n v hv).name = n := by
  unfold BaseType.ofSize
  split_ifs <;> rfl

theorem BaseType.varSize_ofSize (n : BaseName) {v : Nat} (hv : v < 2 ^ 63) :
    (BaseType.ofSize n v hv).varSize = if n.sized then (v : Int) else 0 := by
  unfold BaseType.ofSize
  split_ifs with h h' h' <;> simp_all [BaseType.varSize]

theorem BaseType.length_text_ofSize (n : BaseName) {d : List UInt8} (hd : ∀ c ∈ d, isDigit c)
    (hv : hornerFrom 0 d < 2 ^ 63) :
    (BaseType.ofSize n (hornerFrom 0 d) hv).text.length ≤ n.text.length + d.length := by
  unfold BaseType.ofSize
  split_ifs with h
  · have hne : d ≠ [] := by rintro rfl; simp [hornerFrom] at h
    have := length_decimal_le (by simpa using hornerFrom_lt_pow hd 0) (List.length_pos.mpr hne)
    simpa [BaseType.text, BaseType.digits] using this
  · simp [BaseType.text, BaseType.digits]

theorem exists_baseName_of_mem {x : List UInt8} (h : x ∈ varTypes) :
    ∃ n : BaseName, n.text = x := by
  simp only [varTypes, List.mem_cons, List.mem_singleton, List.not_mem_nil, or_false] at h
  rcases h with rfl | rfl | rfl | rfl | rfl | rfl | rfl
  exacts [⟨.int, rfl⟩, ⟨.uint, rfl⟩, ⟨.bool, rfl⟩, ⟨.address, rfl⟩, ⟨.string, rfl⟩,
    ⟨.bytes, rfl⟩, ⟨.function, rfl⟩]

theorem accepted_of_setBaseType {typ r : AbiType} {t name : List UInt8}
    (h : setBaseType (some (.ok uint8Type)) typ t name = some (.ok r)) :
    ∃ p v, typeMatch name = some p ∧ varSizeOf p = .ok v ∧ p.getD 1 [] ∈ varTypes := by
  have ho := setBaseType_outcome (u := uint8Type) typ t name
  rw [h] at ho
  simp only [Option.map_some', NewTypeResult.outcome, Option.some.injEq, nameOutcome] at ho
  rcases hm : typeMatch name with _ | p
  · simp [hm] at ho
  · rcases hv : varSizeOf p with e | v
    · simp [hm, hv] at ho
    · simp only [hm, hv] at ho
      split_ifs at ho with hmem
      exact ⟨p, v, rfl, hv, hmem⟩

theorem typeMatch_digits {name : List UInt8} {p : List (List UInt8)} {v : Int}
    (hm : typeMatch name = some p) (hv : varSizeOf p = .ok v) :
    ∃ d, (∀ c ∈ d, isDigit c) ∧ (p.getD 1 []).length + d.length ≤ name.length ∧
      v = hornerFrom 0 d ∧ hornerFrom 0 d < 2 ^ 63 := by
  have hx4 : p.getD 4 [] = [] := by
    by_contra hne
    obtain ⟨e, he⟩ := varSizeOf_of_xGroup hm hne
    rw [he] at hv
    cases hv
  cases hs : name.dropWhile (fun c => !isLetter c) with
  | nil => simp [typeMatch, hs] at hm
  | cons c r =>
    have hlen : (c :: r).length ≤ name.length := hs ▸ (List.dropWhile_sublist _).length_le
    simp only [typeMatch, hs, Option.some.injEq] at hm
    subst hm
    have hL := congrArg List.length (List.takeWhile_append_dropWhile isLetter (c :: r))
    have hD := congrArg List.length
      (List.takeWhile_append_dropWhile isDigit ((c :: r).dropWhile isLetter))
    simp only [List.length_append] at hL hD
    simp only [typeGroups] at hv hx4 ⊢
    generalize hdd : List.takeWhile isDigit _ = d at hv hD hx4 ⊢
    split_ifs at hv hx4 ⊢ with hd0
    · simp only [varSizeOf, List.getD_cons_succ, List.getD_cons_zero, List.length_nil,
        lt_self_iff_false, if_false, Except.ok.injEq] at hv
      exact ⟨[], by simp, by simp; omega, by simp [hornerFrom, hv], by simp [hornerFrom]⟩
    · have hdig : ∀ b ∈ d, isDigit b := fun _ hb => List.mem_takeWhile_imp (hdd ▸ hb)
      cases hx : xGroup (((c :: r).dropWhile isLetter).dropWhile isDigit) with
      | some e => simp [hx] at hx4
      | none =>
        simp only [hx, varSizeOf, List.getD_cons_succ, List.getD_cons_zero,
          List.length_pos.mpr hd0, if_true, atoi_of_digits hd0 hdig] at hv ⊢
        split_ifs at hv with hbig
        simp only [Except.ok.injEq] at hv
        exact ⟨d, hdig, by omega, hv.symm, by omega⟩

/-- A name `setBaseType` accepts behaves as a canonical base type no longer than itself. -/
theorem setBaseType_canonical {typ r : AbiType} {t name : List UInt8}
    (h : setBaseType (some (.ok uint8Type)) typ t name = some (.ok r)) :
    ∃ b : BaseType, b.text.length ≤ name.length ∧ ∀ typ t,
      setBaseType (some (.ok uint8Type)) typ t name =
        setBaseType (some (.ok uint8Type)) typ t b.text := by
  obtain ⟨p, v, hm, hv, hmem⟩ := accepted_of_setBaseType h
  obtain ⟨d, hd, hlen, rfl, hlt⟩ := typeMatch_digits hm hv
  obtain ⟨n, hn⟩ := exists_baseName_of_mem hmem
  refine ⟨BaseType.ofSize n _ hlt, ?_, fun typ t => ?_⟩
  · have := BaseType.length_text_ofSize n hd hlt
    rw [hn] at this
    omega
  · unfold setBaseType
    rw [findStringSubmatch_typeRegex, findStringSubmatch_typeRegex, hm, typeMatch_text]
    dsimp only
    rw [hv, varSizeOf_text, BaseType.varSize_ofSize, BaseType.name_ofSize, ← hn]
    cases n <;> simp +decide [setVarType, BaseName.sized, BaseName.text]

theorem setElem_ok {elem u : Option NewTypeResult} {typ r : AbiType} {t name : List UInt8}
    (h : setElem elem u typ t name = some (.ok r)) : ∃ r0, elem = some (.ok r0) := by
  rcases elem with _ | (r0 | e | p)
  · cases h
  · exact ⟨r0, rfl⟩
  all_goals cases h

theorem alnum_append_cancel {a b y z : List UInt8} (ha : ∀ c ∈ a, isAlnum c)
    (hz : z.head? = some 91) (hlen : b.length ≤ a.length) (h : a ++ y = b ++ z) :
    a = b ∧ y = z := by
  rcases List.append_eq_append_iff.mp h with ⟨a', rfl, rfl⟩ | ⟨c', rfl, rfl⟩
  · obtain rfl : a' = [] :=
      List.eq_nil_of_length_eq_zero (by rw [List.length_append] at hlen; omega)
    simp
  · cases c' with
    | nil => simp
    | cons c c' =>
      obtain rfl : c = 91 := by simpa using hz
      exact absurd (ha 91 (by simp)) (by decide)

theorem bracket_of_string_eq {name bt sfx t junk dd rest : List UInt8} (ds : List UInt8)
    (ha : ∀ c ∈ name ++ sfx, isAlnum c) (hblen : bt.length ≤ name.length)
    (ht : t = junk ++ name ++ 91 :: (dd ++ 93 :: rest)) (hds : ds.length ≤ dd.length)
    (h : name ++ sfx ++ t.drop name.length = bt ++ sfx ++ 91 :: (ds ++ [93])) :
    name = bt ∧ t = name ++ 91 :: (ds ++ [93]) := by
  obtain ⟨h1, h2⟩ := alnum_append_cancel ha (by rfl) (by simp; omega) h
  have hdrop := congrArg List.length h2
  rw [ht] at hdrop
  simp only [List.length_drop, List.length_append, List.length_cons, List.length_singleton,
    List.length_nil] at hdrop
  obtain rfl : junk = [] := List.eq_nil_of_length_eq_zero (by omega)
  refine ⟨List.append_cancel_right h1, ?_⟩
  rw [← h2, ht]
  simp

theorem setElem_normal {t name : List UInt8} {typ typA : AbiType} (hl : name.length ≤ t.length)
    (h : setElem (setBaseType (some (.ok uint8Type)) .zero name name) (some (.ok uint8Type)) typA t
      name = some (.ok typ))
    (hT : typA.t = intTy) (hsa : (typA.isSlice || typA.isArray) = true) :
    ∃ b : BaseType, b.text.length ≤ name.length ∧
      typ.string = name ++ b.suffix ++ t.drop name.length ∧
      render typ = some (b.canonical ++ typA.dimSuffix) ∧
      typ.requiresLengthPrefix = (typA.isSlice || b.name == .string) := by
  obtain ⟨r0, h0⟩ := setElem_ok h
  obtain ⟨b, hblen, hb⟩ := setBaseType_canonical h0
  obtain ⟨r, hr, hs, hrr, hlr⟩ := setElem_text b hb typA t hl hT hsa
  rw [hr] at h
  cases h
  exact ⟨b, hblen, hs, hrr, hlr⟩

/-- Every type `NewType` returns: the canonical form `pack` walks, and the `String` it keeps. -/
theorem newType_normal {t : List UInt8} {typ : AbiType} (h : newType t = .ok typ) :
    ∃ (b : BaseType) (dim : Dim), render typ = some (TypeDesc.canonical ⟨b, dim⟩) ∧
      typ.requiresLengthPrefix = TypeDesc.lengthPrefixed ⟨b, dim⟩ ∧ (dim = .scalar ∧ typ.string = t ++ b.suffix ∨
        b.text.length ≤ (firstName t).length ∧
        typ.string = firstName t ++ b.suffix ++ t.drop (firstName t).length ∧
        ∃ junk dd rest, t = junk ++ firstName t ++ 91 :: (dd ++ 93 :: rest) ∧
          dim.text = 91 :: (dim.digits ++ [93]) ∧ dim.digits.length ≤ dd.length) := by
  cases hm : fullTypeMatch t with
  | none => rw [newType_of_none hm] at h; cases h
  | some res =>
    have key := newType_of_match hm
    rw [h] at key
    have hl : (firstName t).length ≤ t.length :=
      ((List.takeWhile_sublist _).trans (List.dropWhile_sublist _)).length_le
    rcases fullTypeMatch_shape hm with rfl | ⟨junk, dd, rest, hdd, rfl, ht⟩
    · simp only [List.getD_cons_succ, List.getD_cons_zero, ne_eq, not_true_eq_false, if_false,
        (name_of_fullTypeMatch hm).2.1] at key
      obtain ⟨b, -, hb⟩ := setBaseType_canonical key.symm
      obtain ⟨r, hr, hs, hrr, -, hlr⟩ := setBaseType_text_zero b t
      rw [hb, hr] at key
      cases key
      exact ⟨b, .scalar, by simpa [TypeDesc.canonical, Dim.text] using hrr, hlr, .inl ⟨rfl, hs⟩⟩
    · simp only [List.getD_cons_succ, List.getD_cons_zero, ne_eq, List.cons_append, reduceCtorEq,
        not_false_eq_true, if_true] at key
      by_cases hd0 : dd = []
      · subst hd0
        simp only [not_true_eq_false, if_false] at key
        obtain ⟨b, hblen, hs, hr, hlr⟩ := setElem_normal hl key.symm rfl rfl
        exact ⟨b, .slice, hr, by simpa [TypeDesc.lengthPrefixed] using hlr,
          .inr ⟨hblen, hs, junk, [], rest, ht, rfl, le_rfl⟩⟩
      · simp only [hd0, not_false_eq_true, if_true] at key
        obtain ⟨v, hv, hvlt, hvlen⟩ := atoi_of_digits_le hd0 hdd
        obtain ⟨b, hblen, hs, hr, hlr⟩ := setElem_normal hl key.symm rfl rfl
        refine ⟨b, .array ⟨v, hvlt⟩, ?_, by simpa [TypeDesc.lengthPrefixed] using hlr,
          .inr ⟨hblen, hs, junk, dd, rest, ht, rfl, hvlen⟩⟩
        rw [hr, hv]
        rfl

theorem canonical_of_string_eq_render {t : List UInt8} {typ : AbiType} (h : newType t = .ok typ)
    (hsr : some typ.string = render typ) : ∃ d : TypeDesc, d.text = t := by
  obtain ⟨b, dim, hr, -, ⟨rfl, hs⟩ | ⟨hblen, hs, junk, dd, rest, ht, hdim, hdl⟩⟩ :=
    newType_normal h
  · rw [hr, hs, Option.some.injEq, TypeDesc.canonical, BaseType.canonical_eq, Dim.text,
      List.append_nil] at hsr
    exact ⟨⟨b, .scalar⟩, by
      simpa [TypeDesc.text, Dim.text] using (List.append_cancel_right hsr).symm⟩
  · rw [hr, hs, Option.some.injEq, TypeDesc.canonical, BaseType.canonical_eq, hdim] at hsr
    have ha : ∀ c ∈ firstName t ++ b.suffix, isAlnum c := fun c hc =>
      (List.mem_append.mp hc).elim (firstName_alnum t c) (b.suffix_alnum c)
    obtain ⟨hname, ht'⟩ := bracket_of_string_eq dim.digits ha hblen ht hdl hsr
    exact ⟨⟨b, dim⟩, by rw [TypeDesc.text, hdim, ← hname, ← ht']⟩

/-- `String` agrees with the type `pack` walks exactly on the canonical type strings. -/
theorem string_eq_render_iff (t : List UInt8) (typ : AbiType) (h : newType t = .ok typ) :
    some typ.string = render typ ↔ ∃ d : TypeDesc, d.text = t := by
  refine ⟨canonical_of_string_eq_render h, ?_⟩
  rintro ⟨d, rfl⟩
  obtain ⟨typ', h', hs, hr, -⟩ := newType_text d
  rw [h] at h'
  cases h'
  rw [hs, hr]

theorem string_eq_render_uint8_array :
    newType (bytesOf "uint8[2]") = .ok ⟨false, true, 2, some uint8Type, 8, uintTy, bytesOf "uint8[2]"⟩ ∧
      (some (AbiType.string ⟨false, true, 2, some uint8Type, 8, uintTy, bytesOf "uint8[2]"⟩) =
          render ⟨false, true, 2, some uint8Type, 8, uintTy, bytesOf "uint8[2]"⟩ ↔
        ∃ d : TypeDesc, d.text = bytesOf "uint8[2]") :=
  ⟨rfl, string_eq_render_iff _ _ rfl⟩

/-- `pack` walks every accepted type as a canonical type string of at most one dimension. -/
theorem newType_render_canonical (t : List UInt8) (typ : AbiType) (h : newType t = .ok typ) :
    ∃ d : TypeDesc, render typ = some d.canonical ∧ typ.requiresLengthPrefix = d.lengthPrefixed :=
  let ⟨b, dim, hr, hlr, _⟩ := newType_normal h
  ⟨⟨b, dim⟩, hr, hlr⟩

theorem newType_render_int0_nested :
    newType (bytesOf "int0[2][3]") = .ok ⟨false, true, 2, some ⟨false, false, 0, none, 256, intTy,
      bytesOf "int0256"⟩, 256, intTy, bytesOf "int0256[2][3]"⟩ ∧
      ∃ d : TypeDesc, render ⟨false, true, 2, some ⟨false, false, 0, none, 256, intTy,
        bytesOf "int0256"⟩, 256, intTy, bytesOf "int0256[2][3]"⟩ = some d.canonical ∧
        AbiType.requiresLengthPrefix ⟨false, true, 2, some ⟨false, false, 0, none, 256, intTy,
          bytesOf "int0256"⟩, 256, intTy, bytesOf "int0256[2][3]"⟩ = d.lengthPrefixed :=
  ⟨rfl, newType_render_canonical (bytesOf "int0[2][3]") _ rfl⟩

end Bxmp
