import Bxmp.Abi.TypeRegex
import Bxmp.Strconv

namespace Bxmp

/-- `IntTy`, the first of the `T` constants of `type.go`. -/
def intTy : UInt8 := 0
/-- `UintTy`. -/
def uintTy : UInt8 := 1
/-- `BoolTy`. -/
def boolTy : UInt8 := 2
/-- `StringTy`. -/
def stringTy : UInt8 := 3
/-- `AddressTy`. -/
def addressTy : UInt8 := 5
/-- `FixedBytesTy`. -/
def fixedBytesTy : UInt8 := 6
/-- `BytesTy`. -/
def bytesTy : UInt8 := 7
/-- `FunctionTy`. -/
def functionTy : UInt8 := 10

/-- The `Type` of `type.go`, without the reflection fields `Kind` and `Type`; `elem` is
the pointer `Elem`. -/
structure AbiType where
  isSlice : Bool
  isArray : Bool
  sliceSize : Int
  elem : Option AbiType
  size : Int
  t : UInt8
  stringKind : List UInt8

/-- Go's zero value `Type{}`. -/
def AbiType.zero : AbiType := ⟨false, false, 0, none, 0, 0, []⟩

/-- The errors `NewType` returns, with what each formats. -/
inductive TypeError
  | typeParse (t : List UInt8)
  | variableSize (e : NumError)
  | unsupportedArgType (t : List UInt8)

/-- `err.Error()` for the errors of `NewType`. -/
def TypeError.error : TypeError → List UInt8
  | .typeParse t => bytesOf "abi: type parse error: " ++ t
  | .variableSize e => bytesOf "abi: error parsing variable size: " ++ e.error
  | .unsupportedArgType t => bytesOf "unsupported arg type: " ++ t

/-- The run-time panics within reach of `NewType`: indexing an empty match list, and
slicing a string past its end. -/
inductive Panic
  | indexOutOfRange
  | sliceBoundsOutOfRange
  deriving DecidableEq, Repr

/-- How a call of `NewType` ends: it returns a type and a nil error, returns `Type{}` and
an error, or panics. -/
inductive NewTypeResult
  | ok (typ : AbiType)
  | error (e : TypeError)
  | panic (p : Panic)

/-- The `Type` a call that did not panic returns. -/
def NewTypeResult.type : NewTypeResult → AbiType
  | .ok typ => typ
  | _ => .zero

/-- Lines 103-112 of `NewType`: the size written after the name, read by `Atoi` when
there is one. -/
def varSizeOf (parsedType : List (List UInt8)) : Except NumError Int :=
  if 0 < (parsedType.getD 3 []).length then
    match atoi (parsedType.getD 2 []) with
    | (_, some e) => .error e
    | (v, none) => .ok v
  else .ok 0

/-- Lines 127-168 of `NewType`: the switch on `varType`, writing the type it names into
`typ`; `uint8` is what the nested call `NewType("uint8")` ends in. -/
def setVarType (uint8 : Option NewTypeResult) (typ : AbiType) (t varType : List UInt8)
    (varSize : Int) : Option NewTypeResult :=
  if varType = bytesOf "int" then some (.ok { typ with size := varSize, t := intTy })
  else if varType = bytesOf "uint" then some (.ok { typ with size := varSize, t := uintTy })
  else if varType = bytesOf "bool" then some (.ok { typ with t := boolTy })
  else if varType = bytesOf "address" then some (.ok { typ with size := 20, t := addressTy })
  else if varType = bytesOf "string" then some (.ok { typ with size := -1, t := stringTy })
  else if varType = bytesOf "bytes" then
    uint8.map fun
      | .panic p => .panic p
      | r =>
        let typ := { typ with elem := some r.type }
        if varSize = 0 then .ok { typ with isSlice := true, t := bytesTy, sliceSize := -1 }
        else .ok { typ with isArray := true, t := fixedBytesTy, sliceSize := varSize }
  else if varType = bytesOf "function" then
    uint8.map fun
      | .panic p => .panic p
      | r => .ok { typ with elem := some r.type, isArray := true, t := functionTy, sliceSize := 24 }
  else some (.error (.unsupportedArgType t))

/-- Lines 102-170 of `NewType`: the base type named by `name` (that is `res[1]`) written
into `typ`. An unsized `int` or `uint` becomes 256 bits wide, and `t` gets `256` appended. -/
def setBaseType (uint8 : Option NewTypeResult) (typ : AbiType) (t name : List UInt8) :
    Option NewTypeResult :=
  match typeRegex.findStringSubmatch name with
  | none => some (.panic .indexOutOfRange)
  | some parsedType =>
    match varSizeOf parsedType with
    | .error e => some (.error (.variableSize e))
    | .ok varSize =>
      let varType := parsedType.getD 1 []
      let substitute := varSize = 0 ∧ (varType = bytesOf "int" ∨ varType = bytesOf "uint")
      let t := if substitute then t ++ bytesOf "256" else t
      setVarType uint8 (if typ.isArray || typ.isSlice then typ else { typ with stringKind := t }) t
        varType (if substitute then 256 else varSize)

/-- Lines 87-100 of `NewType`: the element of the array or slice `typ` is what the call
`NewType(name)` returns, `elem`, and the signature text is the element's followed by
`t[len(name):]`. -/
def setElem (elem uint8 : Option NewTypeResult) (typ : AbiType) (t name : List UInt8) :
    Option NewTypeResult :=
  elem.bind fun
    | .ok sliceType =>
      if t.length < name.length then some (.panic .sliceBoundsOutOfRange)
      else
        let typ := { typ with
          elem := some sliceType, stringKind := sliceType.stringKind ++ t.drop name.length }
        if sliceType.isArray || sliceType.isSlice then some (.ok typ)
        else setBaseType uint8 typ t name
    | r => some r

/-- `NewType(t)` with a recursion budget, `none` once the budget is spent. Three levels
are always enough (`newTypeFuel_three_isSome`), which makes `newType` the function. -/
def newTypeFuel : Nat → List UInt8 → Option NewTypeResult
  | 0, _ => none
  | fuel + 1, t =>
    match fullTypeRegex.findStringSubmatch t with
    | none => some (.panic .indexOutOfRange)
    | some res =>
      let name := res.getD 1 []
      if res.getD 3 [] ≠ [] then
        -- err is ignored. Already checked for number through the regexp
        setElem (newTypeFuel fuel name) (newTypeFuel fuel (bytesOf "uint8"))
          { AbiType.zero with sliceSize := (atoi (res.getD 3 [])).1, isArray := true } t name
      else if res.getD 2 [] ≠ [] then
        setElem (newTypeFuel fuel name) (newTypeFuel fuel (bytesOf "uint8"))
          { AbiType.zero with isSlice := true, sliceSize := -1 } t name
      else if res.getD 0 [] = [] then some (.error (.typeParse t))
      else setBaseType (newTypeFuel fuel (bytesOf "uint8")) .zero t name

/-- `Type.String`. -/
def AbiType.string (typ : AbiType) : List UInt8 := typ.stringKind

/-- `requiresLengthPrefix`. -/
def AbiType.requiresLengthPrefix (typ : AbiType) : Bool :=
  typ.t != fixedBytesTy && (typ.t == stringTy || typ.t == bytesTy || typ.isSlice)

/-- The canonical base name chosen by `T`, for the values of `T` that `NewType` sets. -/
def baseName (typ : AbiType) : Option (List UInt8) :=
  if typ.t = intTy then some (bytesOf "int" ++ itoa typ.size)
  else if typ.t = uintTy then some (bytesOf "uint" ++ itoa typ.size)
  else if typ.t = boolTy then some (bytesOf "bool")
  else if typ.t = addressTy then some (bytesOf "address")
  else if typ.t = stringTy then some (bytesOf "string")
  else if typ.t = bytesTy then some (bytesOf "bytes")
  else if typ.t = fixedBytesTy then some (bytesOf "bytes" ++ itoa typ.sliceSize)
  else if typ.t = functionTy then some (bytesOf "function")
  else none

/-- Whether `pack` iterates over the elements of `typ`: a slice or an array other than
`bytes`, `bytesN` and `function`. -/
def AbiType.walksElem (typ : AbiType) : Bool :=
  (typ.isSlice || typ.isArray) && typ.t != bytesTy && typ.t != fixedBytesTy && typ.t != functionTy

/-- The suffix `render` writes after the element of a layer it walks. -/
def AbiType.dimSuffix (typ : AbiType) : List UInt8 :=
  if typ.isSlice then bytesOf "[]" else 91 :: itoa typ.sliceSize ++ [93]

/-- The type `pack` walks, written out by the case split of `pack`: a layer it iterates
over is its element followed by `[]` or `[n]`, any other type is its base name. `none`
where `pack` would dereference a nil `Elem`. -/
def render : AbiType → Option (List UInt8)
  | typ@⟨_, _, _, elem, _, _, _⟩ =>
    if typ.walksElem then
      match elem with
      | some e => (render e).map (· ++ typ.dimSuffix)
      | none => none
    else baseName typ

theorem render_of_walksElem {typ e : AbiType} (h : typ.walksElem) (he : typ.elem = some e) :
    render typ = (render e).map (· ++ typ.dimSuffix) := by
  obtain ⟨_, _, _, _, _, _, _⟩ := typ
  cases he
  rw [render, if_pos h]

theorem render_of_not_walksElem {typ : AbiType} (h : typ.walksElem = false) :
    render typ = baseName typ := by
  obtain ⟨_, _, _, _, _, _, _⟩ := typ
  unfold render
  rw [if_neg (by simp [h])]

theorem render_of_walksElem' {typ : AbiType} (h : typ.walksElem) :
    render typ = (typ.elem.bind render).map (· ++ typ.dimSuffix) := by
  cases he : typ.elem with
  | none =>
    obtain ⟨_, _, _, _, _, _, _⟩ := typ
    cases he
    rw [render, if_pos h]
    rfl
  | some e => rw [render_of_walksElem h he]; rfl

end Bxmp
