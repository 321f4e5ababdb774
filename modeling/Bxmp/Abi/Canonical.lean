import Bxmp.Abi.Render

namespace Bxmp

/-- A size written in a canonical type: a decimal without leading zeros, positive, and in
the range that `Atoi` reads without error. -/
structure Width where
  val : Nat
  pos : 0 < val
  lt : val < 2 ^ 63

/-- The names of the switch on `varType`. -/
inductive BaseName
  | int
  | uint
  | bool
  | address
  | string
  | bytes
  | function
  deriving DecidableEq, Repr

def BaseName.text : BaseName → List UInt8
  | .int => bytesOf "int"
  | .uint => bytesOf "uint"
  | .bool => bytesOf "bool"
  | .address => bytesOf "address"
  | .string => bytesOf "string"
  | .bytes => bytesOf "bytes"
  | .function => bytesOf "function"

/-- The names written with a size: `intN`, `uintN` and `bytesN`. -/
def BaseName.sized : BaseName → Bool
  | .int | .uint | .bytes => true
  | _ => false

/-- A base type of the ABI grammar, with a size only where its name takes one. -/
structure BaseType where
  name : BaseName
  width : Option Width
  sized : width.isSome → name.sized

/-- The digits written after the name. -/
def BaseType.digits (b : BaseType) : List UInt8 :=
  match b.width with
  | some w => decimal w.val
  | none => []

def BaseType.text (b : BaseType) : List UInt8 := b.name.text ++ b.digits

/-- The size `Atoi` reads off the digits, `0` when there are none. -/
def BaseType.varSize (b : BaseType) : Int :=
  match b.width with
  | some w => w.val
  | none => 0

/-- The canonical name: `int` and `uint` without a size are 256 bits wide. -/
def BaseType.canonical (b : BaseType) : List UInt8 :=
  match b.name, b.width with
  | .int, none => bytesOf "int256"
  | .uint, none => bytesOf "uint256"
  | _, _ => b.text

/-- What `NewType` appends to the name in the signature: `256` after an unsized `int`
or `uint`. -/
def BaseType.suffix (b : BaseType) : List UInt8 :=
  match b.name, b.width with
  | .int, none | .uint, none => bytesOf "256"
  | _, _ => []

/-- At most one dimension: none, a slice `[]`, or an array `[n]` with `n` in the `int`
range. -/
inductive Dim
  | scalar
  | slice
  | array (n : Fin (2 ^ 63))

def Dim.text : Dim → List UInt8
  | .scalar => []
  | .slice => bytesOf "[]"
  | .array n => 91 :: decimal n ++ [93]

/-- The digits of the bracket group, `res[3]`. -/
def Dim.digits : Dim → List UInt8
  | .array n => decimal n
  | _ => []

/-- A type string of the grammar `Base Dim?` written canonically. -/
structure TypeDesc where
  base : BaseType
  dim : Dim

def TypeDesc.text (d : TypeDesc) : List UInt8 := d.base.text ++ d.dim.text

def TypeDesc.canonical (d : TypeDesc) : List UInt8 := d.base.canonical ++ d.dim.text

/-- What `requiresLengthPrefix` gives on the canonical type `d`: true on every slice, on
`string` and on `bytes`, and on an array exactly when its element is `string`. -/
def TypeDesc.lengthPrefixed (d : TypeDesc) : Bool :=
  match d.dim with
  | .scalar => d.base.name == .string || d.base.name == .bytes && d.base.width.isNone
  | .slice => true
  | .array _ => d.base.name == .string

theorem BaseName.text_letters (n : BaseName) : n.text ≠ [] ∧ ∀ b ∈ n.text, isLetter b := by
  cases n <;> decide

theorem BaseType.canonical_eq (b : BaseType) : b.canonical = b.text ++ b.suffix := by
  obtain ⟨n, _ | w, h⟩ := b <;> cases n <;> simp [BaseType.canonical, BaseType.suffix] <;> rfl

theorem BaseType.suffix_alnum (b : BaseType) : ∀ c ∈ b.suffix, isAlnum c := by
  unfold BaseType.suffix
  split <;> decide

theorem BaseType.digits_digits (b : BaseType) : ∀ c ∈ b.digits, isDigit c := by
  unfold BaseType.digits
  split
  · exact decimal_digits _
  · simp

theorem takeWhile_of_digits {p : UInt8 → Bool} {d : List UInt8} (hp : ∀ c, isDigit c → p c = false)
    (h : ∀ c ∈ d, isDigit c) : d.takeWhile p = [] := by
  cases d with
  | nil => rfl
  | cons c d => simp [hp c (h c (List.mem_cons_self c d))]

theorem dropWhile_of_digits {p : UInt8 → Bool} {d : List UInt8} (hp : ∀ c, isDigit c → p c = false)
    (h : ∀ c ∈ d, isDigit c) : d.dropWhile p = d := by
  cases d with
  | nil => rfl
  | cons c d => simp [hp c (h c (List.mem_cons_self c d))]

/-- `typeRegex` on a canonical base type reads its name and its digits. -/
theorem typeMatch_text (b : BaseType) :
    typeMatch b.text = some [b.text, b.name.text, b.digits, b.digits, [], []] := by
  obtain ⟨hne, hl⟩ := b.name.text_letters
  obtain ⟨c, r, hcr⟩ := List.exists_cons_of_ne_nil hne
  have hc : isLetter c := hl c (hcr ▸ List.mem_cons_self c r)
  have hd := b.digits_digits
  have hm : typeMatch b.text = some (typeGroups b.text) := by
    simp [typeMatch, BaseType.text, hcr, hc]
  have htake : b.text.takeWhile isLetter = b.name.text := by
    rw [BaseType.text, List.takeWhile_append_of_pos hl,
      takeWhile_of_digits (fun _ => not_isLetter_of_isDigit) hd, List.append_nil]
  have hrest : b.text.dropWhile isLetter = b.digits := by
    rw [BaseType.text, List.dropWhile_append_of_pos hl,
      dropWhile_of_digits (fun _ => not_isLetter_of_isDigit) hd]
  rw [hm, typeGroups]
  simp only [htake, hrest, List.takeWhile_eq_self_iff.mpr hd, List.dropWhile_eq_nil_iff.mpr hd,
    xGroup]
  split_ifs with h0
  · simp [BaseType.text, h0]
  · rfl

theorem varSizeOf_text (b : BaseType) :
    varSizeOf [b.text, b.name.text, b.digits, b.digits, [], []] = .ok b.varSize := by
  unfold varSizeOf BaseType.varSize
  cases hw : b.width with
  | none => simp [BaseType.digits, hw]
  | some w => simp [BaseType.digits, hw, List.length_pos, decimal_ne_nil, atoi_decimal w.lt]

theorem bytesOf_brackets : bytesOf "[]" = [91, 93] := rfl

theorem takeWhile_dim (dim : Dim) : dim.text.takeWhile isAlnum = [] := by
  cases dim <;> rfl

theorem dropWhile_dim (dim : Dim) : dim.text.dropWhile isAlnum = dim.text := by
  cases dim <;> rfl

theorem bracketGroup_dim (dim : Dim) :
    bracketGroup dim.text = match dim with
      | .scalar => none
      | _ => some (dim.digits, []) := by
  have h93 : isDigit 93 = false := by decide
  cases dim with
  | scalar => rfl
  | slice => rfl
  | array n =>
    simp [Dim.text, Dim.digits, bracketGroup, List.dropWhile_append_of_pos (decimal_digits n),
      List.takeWhile_append_of_pos (decimal_digits n), h93]

theorem fullTypeMatch_text (d : TypeDesc) :
    fullTypeMatch d.text = some [d.text, d.base.text, d.dim.text, d.dim.digits] := by
  obtain ⟨hne, hl⟩ := d.base.name.text_letters
  obtain ⟨c, r, hcr⟩ := List.exists_cons_of_ne_nil hne
  have hc : isLetter c := hl c (hcr ▸ List.mem_cons_self c r)
  have hal : ∀ x ∈ d.base.text, isAlnum x := by
    intro x hx
    rcases List.mem_append.mp hx with h | h
    · exact isAlnum_of_isLetter (hl x h)
    · exact isAlnum_of_isDigit (d.base.digits_digits x h)
  have hm : fullTypeMatch d.text = some (fullTypeGroups d.text) := by
    simp [fullTypeMatch, TypeDesc.text, BaseType.text, hcr, isAlnum_of_isLetter hc]
  have htake : d.text.takeWhile isAlnum = d.base.text := by
    rw [TypeDesc.text, List.takeWhile_append_of_pos hal, takeWhile_dim, List.append_nil]
  have hrest : d.text.dropWhile isAlnum = d.dim.text := by
    rw [TypeDesc.text, List.dropWhile_append_of_pos hal, dropWhile_dim]
  rw [hm, fullTypeGroups]
  simp only [htake, hrest, bracketGroup_dim]
  obtain ⟨b, _ | _ | n⟩ := d <;> simp [TypeDesc.text, Dim.text, Dim.digits, bytesOf_brackets]

theorem setVarType_fixedBytes {u typ : AbiType} {t : List UInt8} {varSize : Int} (h : varSize ≠ 0) :
    setVarType (some (.ok u)) typ t (bytesOf "bytes") varSize =
      some (.ok { typ with elem := some u, isArray := true, t := fixedBytesTy, sliceSize := varSize }) := by
  simp +decide [setVarType, h, NewTypeResult.type]

theorem setBaseType_text_zero (b : BaseType) (t : List UInt8) :
    ∃ r, setBaseType (some (.ok uint8Type)) .zero t b.text = some (.ok r) ∧
      r.stringKind = t ++ b.suffix ∧ render r = some b.canonical ∧
      (r.isArray || r.isSlice) = (b.name == .bytes || b.name == .function) ∧
      r.requiresLengthPrefix = (b.name == .string || b.name == .bytes && b.width.isNone) := by
  unfold setBaseType
  rw [findStringSubmatch_typeRegex, typeMatch_text]
  dsimp only
  rw [varSizeOf_text]
  obtain ⟨name, width, hsized⟩ := b
  cases width with
  | none =>
    cases name <;> exact ⟨_, rfl, by first | rfl | exact (List.append_nil _).symm, rfl, rfl, rfl⟩
  | some w =>
    have hw : (w.val : Int) ≠ 0 := by have := w.pos; omega
    simp only [BaseType.varSize, hw, false_and, if_false]
    cases name
    case bool | address | string | function => exact absurd (hsized rfl) (by simp [BaseName.sized])
    case bytes => exact ⟨_, setVarType_fixedBytes hw, (List.append_nil _).symm, rfl, rfl, rfl⟩
    all_goals exact ⟨_, rfl, (List.append_nil _).symm, rfl, rfl, rfl⟩

theorem setBaseType_walks (b : BaseType) (hn : b.name ≠ .bytes ∧ b.name ≠ .function)
    (typ : AbiType) (t : List UInt8) (hsa : (typ.isSlice || typ.isArray) = true) :
    ∃ r, setBaseType (some (.ok uint8Type)) typ t b.text = some (.ok r) ∧
      r.stringKind = typ.stringKind ∧ render r = (typ.elem.bind render).map (· ++ typ.dimSuffix) ∧
      r.requiresLengthPrefix = (typ.isSlice || b.name == .string) := by
  have hsa' : (typ.isArray || typ.isSlice) = true := by rwa [Bool.or_comm]
  unfold setBaseType
  rw [findStringSubmatch_typeRegex, typeMatch_text]
  dsimp only
  rw [varSizeOf_text]
  simp only [hsa', if_true]
  obtain ⟨name, width, hsized⟩ := b
  cases name
  case bytes => exact absurd rfl hn.1
  case function => exact absurd rfl hn.2
  all_goals exact ⟨_, rfl, rfl,
    render_of_walksElem' (by simp [AbiType.walksElem, hsa, intTy, uintTy, boolTy, addressTy,
      stringTy, bytesTy, fixedBytesTy, functionTy]),
    by simp [AbiType.requiresLengthPrefix, intTy, uintTy, boolTy, addressTy, stringTy, bytesTy,
      fixedBytesTy]⟩

theorem setElem_text (b : BaseType) {name : List UInt8}
    (hname : ∀ typ t, setBaseType (some (.ok uint8Type)) typ t name =
      setBaseType (some (.ok uint8Type)) typ t b.text)
    (typ : AbiType) (t : List UInt8) (hl : name.length ≤ t.length) (hT : typ.t = intTy)
    (hsa : (typ.isSlice || typ.isArray) = true) :
    ∃ r, setElem (setBaseType (some (.ok uint8Type)) .zero name name) (some (.ok uint8Type)) typ t
        name = some (.ok r) ∧
      r.string = name ++ b.suffix ++ t.drop name.length ∧
      render r = some (b.canonical ++ typ.dimSuffix) ∧
      r.requiresLengthPrefix = (typ.isSlice || b.name == .string) := by
  obtain ⟨r0, h0, hs0, hr0, hkind, -⟩ := setBaseType_text_zero b name
  have hw : ∀ k, ({ typ with elem := some r0, stringKind := k } : AbiType).walksElem := by
    simp [AbiType.walksElem, hT, hsa, intTy, bytesTy, fixedBytesTy, functionTy]
  rw [hname, h0]
  simp only [setElem, Option.some_bind, if_neg (Nat.not_lt.mpr hl)]
  split_ifs with harr
  · have hns : (b.name == .string) = false := by
      rw [harr] at hkind
      revert hkind
      cases b.name <;> decide
    refine ⟨_, rfl, by simp [AbiType.string, hs0], by rw [render_of_walksElem (hw _) rfl, hr0]; rfl,
      ?_⟩
    simp [AbiType.requiresLengthPrefix, hT, hns, intTy, fixedBytesTy, stringTy, bytesTy]
  · have hn : b.name ≠ .bytes ∧ b.name ≠ .function := by
      rw [Bool.not_eq_true, hkind] at harr
      simpa using harr
    obtain ⟨r, hr, hsr, hrr, hlr⟩ := setBaseType_walks b hn
      { typ with elem := some r0, stringKind := r0.stringKind ++ t.drop name.length } t hsa
    refine ⟨r, (hname _ _).trans hr, by simp [AbiType.string, hsr, hs0], ?_, hlr⟩
    rw [hrr, Option.some_bind, hr0]
    rfl

/-- A canonical type string parses, and `String` and `pack` both spell its canonical form. -/
theorem newType_text (d : TypeDesc) :
    ∃ typ, newType d.text = .ok typ ∧ typ.string = d.canonical ∧ render typ = some d.canonical ∧
      typ.requiresLengthPrefix = d.lengthPrefixed := by
  have hm := fullTypeMatch_text d
  have hname : firstName d.text = d.base.text := by
    rw [← (name_of_fullTypeMatch hm).1]
    rfl
  have key := newType_of_match hm
  simp only [hname, List.getD_cons_succ, List.getD_cons_zero] at key
  obtain ⟨b, dim⟩ := d
  cases dim with
  | scalar =>
    obtain ⟨r, hr, hs, hrr, -, hl⟩ := setBaseType_text_zero b b.text
    simp only [TypeDesc.text, Dim.text, Dim.digits, List.append_nil, ne_eq, not_true_eq_false,
      if_false] at key
    rw [if_neg (by simp [BaseType.text, b.name.text_letters.1])] at key
    refine ⟨r, ?_, ?_, ?_, hl⟩
    · simpa [TypeDesc.text, Dim.text] using Option.some.inj (key.trans hr)
    · simpa [TypeDesc.canonical, Dim.text, BaseType.canonical_eq] using hs
    · simpa [TypeDesc.canonical, Dim.text] using hrr
  | slice =>
    obtain ⟨r, hr, hs, hrr, hl⟩ := setElem_text b (fun _ _ => rfl)
      { AbiType.zero with isSlice := true, sliceSize := -1 } (b.text ++ Dim.slice.text) (by simp) rfl rfl
    simp only [Dim.digits, ne_eq, not_true_eq_false, if_false, Dim.text, bytesOf_brackets,
      reduceCtorEq, not_false_eq_true, if_true] at key
    refine ⟨r, Option.some.inj (key.trans hr), ?_, hrr, by simpa [TypeDesc.lengthPrefixed] using hl⟩
    simpa [TypeDesc.canonical, BaseType.canonical_eq] using hs
  | array n =>
    obtain ⟨r, hr, hs, hrr, hl⟩ := setElem_text b (fun _ _ => rfl)
      { AbiType.zero with sliceSize := (atoi (decimal n)).1, isArray := true }
      (b.text ++ (Dim.array n).text) (by simp) rfl rfl
    simp only [Dim.digits, decimal_ne_nil, ne_eq, not_false_eq_true, if_true] at key
    refine ⟨r, Option.some.inj (key.trans hr), ?_, ?_, by simpa [TypeDesc.lengthPrefixed] using hl⟩
    · simpa [TypeDesc.canonical, BaseType.canonical_eq] using hs
    · rw [hrr, atoi_decimal n.isLt]
      rfl

/-- An array of `bytes` gets no length prefix: `NewType` leaves that layer at `IntTy`. -/
theorem requiresLengthPrefix_canonical (d : TypeDesc) :
    (newType d.text).type.requiresLengthPrefix = d.lengthPrefixed := by
  obtain ⟨typ, h, -, -, hl⟩ := newType_text d
  rw [h]
  exact hl

/-- The text `Event.Id` hashes, `fmt.Sprintf("%v(%v)", e.Name, strings.Join(types, ","))`,
where `types` holds the `String` of each input's type. -/
def eventSignature (name : List UInt8) (inputs : List AbiType) : List UInt8 :=
  name ++ 40 :: List.intercalate [44] (inputs.map AbiType.string) ++ [41]

theorem eventSignature_text (name : List UInt8) (ds : List TypeDesc) :
    eventSignature name (ds.map fun d => (newType d.text).type) =
      name ++ 40 :: List.intercalate [44] (ds.map TypeDesc.canonical) ++ [41] := by
  have hs : ∀ d : TypeDesc, (newType d.text).type.string = d.canonical := fun d => by
    obtain ⟨typ, h, hs, -⟩ := newType_text d
    rw [h]
    exact hs
  have hmap : ds.map (AbiType.string ∘ fun d => (newType d.text).type) = ds.map TypeDesc.canonical :=
    List.map_congr_left fun d _ => hs d
  simp only [eventSignature, List.map_map, hmap]

/-- On canonical type strings `String`, the type `pack` walks and the signature agree. -/
theorem canonical_signature :
    (∀ d : TypeDesc, ∃ typ, newType d.text = .ok typ ∧ typ.string = d.canonical ∧
      render typ = some d.canonical) ∧
    ∀ (name : List UInt8) (ds : List TypeDesc),
      eventSignature name (ds.map fun d => (newType d.text).type) =
        name ++ 40 :: List.intercalate [44] (ds.map TypeDesc.canonical) ++ [41] :=
  ⟨fun d => (newType_text d).imp fun _ h => ⟨h.1, h.2.1, h.2.2.1⟩, eventSignature_text⟩

/-- A second bracket group reaches the signature but not the structure. -/
theorem newType_nested_array :
    newType (bytesOf "uint8[2][3]") =
        .ok ⟨false, true, 2, some uint8Type, 8, uintTy, bytesOf "uint8[2][3]"⟩ ∧
      AbiType.string ⟨false, true, 2, some uint8Type, 8, uintTy, bytesOf "uint8[2][3]"⟩ =
        bytesOf "uint8[2][3]" ∧
      render ⟨false, true, 2, some uint8Type, 8, uintTy, bytesOf "uint8[2][3]"⟩ =
        some (bytesOf "uint8[2]") :=
  ⟨rfl, rfl, rfl⟩

theorem TypeDesc.canonical_ne_nil_comma (d : TypeDesc) :
    d.canonical ≠ [] ∧ (44 : UInt8) ∉ d.canonical := by
  obtain ⟨b, dim⟩ := d
  have hb : ∀ c ∈ b.canonical, isAlnum c := by
    intro c hc
    rcases List.mem_append.mp (BaseType.canonical_eq b ▸ hc) with hc | hc
    · rcases List.mem_append.mp hc with hc | hc
      · exact isAlnum_of_isLetter (b.name.text_letters.2 c hc)
      · exact isAlnum_of_isDigit (b.digits_digits c hc)
    · exact b.suffix_alnum c hc
  have hdim : (44 : UInt8) ∉ dim.text := by
    cases dim with
    | scalar => simp [Dim.text]
    | slice => decide
    | array n => simpa [Dim.text] using fun h => absurd (decimal_digits n 44 h) (by decide)
  refine ⟨by simp [TypeDesc.canonical, BaseType.canonical_eq, BaseType.text,
    b.name.text_letters.1], ?_⟩
  intro h
  rcases List.mem_append.mp h with h | h
  · exact absurd (hb 44 h) (by decide)
  · exact hdim h

/-- Joining with commas loses nothing on non-empty texts without a comma. -/
theorem intercalate_comma_injective {xs ys : List (List UInt8)}
    (hx : ∀ x ∈ xs, x ≠ [] ∧ (44 : UInt8) ∉ x) (hy : ∀ y ∈ ys, y ≠ [] ∧ (44 : UInt8) ∉ y)
    (h : List.intercalate [44] xs = List.intercalate [44] ys) : xs = ys := by
  have split : ∀ zs : List (List UInt8), (∀ z ∈ zs, z ≠ [] ∧ (44 : UInt8) ∉ z) → zs ≠ [] →
      (List.intercalate [44] zs).splitOn 44 = zs := fun zs hz hne =>
    List.splitOn_intercalate zs 44 (fun l hl => (hz l hl).2) hne
  have nil : ∀ zs : List (List UInt8), (∀ z ∈ zs, z ≠ [] ∧ (44 : UInt8) ∉ z) →
      List.intercalate [44] zs = [] → zs = [] := fun zs hz h0 => by
    by_contra hne
    have := split zs hz hne
    rw [h0, List.splitOn_nil] at this
    exact (hz [] (by simp [← this])).1 rfl
  rcases eq_or_ne xs [] with rfl | hxs
  · exact (nil ys hy h.symm).symm
  · rcases eq_or_ne ys [] with rfl | hys
    · exact nil xs hx h
    · rw [← split xs hx hxs, h, split ys hy hys]

/-- For one event name, equal signatures mean equal canonical input types. -/
theorem eventSignature_injective (name : List UInt8) (ds ds' : List TypeDesc)
    (h : eventSignature name (ds.map fun d => (newType d.text).type) =
      eventSignature name (ds'.map fun d => (newType d.text).type)) :
    ds.map TypeDesc.canonical = ds'.map TypeDesc.canonical := by
  have hc : ∀ ds : List TypeDesc, ∀ x ∈ ds.map TypeDesc.canonical, x ≠ [] ∧ (44 : UInt8) ∉ x :=
    fun _ x hx => by
      obtain ⟨d, -, rfl⟩ := List.mem_map.mp hx
      exact d.canonical_ne_nil_comma
  rw [eventSignature_text, eventSignature_text] at h
  exact intercalate_comma_injective (hc ds) (hc ds') (by simpa using h)

theorem eventSignature_uint_uint256 :
    eventSignature (bytesOf "Transfer")
        ([TypeDesc.mk ⟨.uint, none, fun h => absurd h (by decide)⟩ .scalar].map
          fun d => (newType d.text).type) =
      eventSignature (bytesOf "Transfer")
        ([TypeDesc.mk ⟨.uint, some ⟨256, by decide, by decide⟩, fun _ => rfl⟩ .scalar].map
          fun d => (newType d.text).type) ∧
    [TypeDesc.mk ⟨.uint, none, fun h => absurd h (by decide)⟩ .scalar].map TypeDesc.canonical =
      [TypeDesc.mk ⟨.uint, some ⟨256, by decide, by decide⟩, fun _ => rfl⟩ .scalar].map
        TypeDesc.canonical :=
  ⟨by rw [eventSignature_text, eventSignature_text]; rfl,
    eventSignature_injective (bytesOf "Transfer") _ _
      (by rw [eventSignature_text, eventSignature_text]; rfl)⟩

end Bxmp
