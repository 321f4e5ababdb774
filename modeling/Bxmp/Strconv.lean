import Bxmp.Bytes

namespace Bxmp

/-- `strconv.ErrSyntax` and `strconv.ErrRange`. -/
inductive NumErr
  | errSyntax
  | errRange
  deriving DecidableEq, Repr

/-- The `*strconv.NumError` of `Atoi`: its input and the cause. -/
structure NumError where
  num : List UInt8
  err : NumErr
  deriving DecidableEq, Repr

/-- `"strconv.Atoi: parsing " + Quote(num) + ": " + err.Error()`. `Quote` leaves the
strings of digits and `x` that `NewType` passes to `Atoi` unchanged between quotes. -/
def NumError.error (e : NumError) : List UInt8 :=
  bytesOf "strconv.Atoi: parsing " ++ 34 :: e.num ++ 34 :: bytesOf ": " ++
    match e.err with
    | .errSyntax => bytesOf "invalid syntax"
    | .errRange => bytesOf "value out of range"

/-- `1<<64 - 1`, the largest `uint64`. -/
def maxUint64 : Nat := 2 ^ 64 - 1

/-- `ParseUint`'s `cutoff` for base 10: the first value whose tenfold overflows. -/
def uint64Cutoff : Nat := maxUint64 / 10 + 1

/-- The value of a decimal digit byte. -/
def digitVal (d : UInt8) : Nat := d.toNat - 48

/-- The digit loop of `strconv.ParseUint(s, 10, 64)` from the value `n` read so far: the
value, or the value and the error it stops with. A letter is a digit of value at least
ten, which base 10 rejects as a syntax error like any other byte. -/
def parseUintLoop : Nat → List UInt8 → Nat × Option NumErr
  | n, [] => (n, none)
  | n, d :: s =>
    if isDigit d then
      if uint64Cutoff ≤ n then (maxUint64, some .errRange)
      else
        let n1 := n * 10 + digitVal d
        if maxUint64 < n1 then (maxUint64, some .errRange) else parseUintLoop n1 s
    else (0, some .errSyntax)

/-- `strconv.ParseUint(s, 10, 64)`. -/
def parseUint (s : List UInt8) : Nat × Option NumErr :=
  if s = [] then (0, some .errSyntax) else parseUintLoop 0 s

/-- `strconv.ParseInt(s, 10, 64)`: an optional sign, then `ParseUint`, the result
clamped to the range of `int64`. -/
def parseInt (s : List UInt8) : Int × Option NumErr :=
  if s = [] then (0, some .errSyntax)
  else
    let (neg, body) : Bool × List UInt8 :=
      match s with
      | c :: r => if c = 43 then (false, r) else if c = 45 then (true, r) else (false, s)
      | [] => (false, s)
    match parseUint body with
    | (_, some .errSyntax) => (0, some .errSyntax)
    | (un, _) =>
      if !neg && 2 ^ 63 ≤ un then (2 ^ 63 - 1, some .errRange)
      else if neg && 2 ^ 63 < un then (-2 ^ 63, some .errRange)
      else (if neg then -(un : Int) else un, none)

/-- `strconv.Atoi(s)`: `ParseInt(s, 10, 0)` where Go's `int` is 64 bits wide, with its error. -/
def atoi (s : List UInt8) : Int × Option NumError :=
  ((parseInt s).1, (parseInt s).2.map fun e => ⟨s, e⟩)

/-- The decimal digits of `n` put in front of `acc`, most significant first, with
`fuel` bounding the number of digits. -/
def decimalCore : Nat → Nat → List UInt8 → List UInt8
  | 0, _, acc => acc
  | fuel + 1, n, acc =>
    let acc := UInt8.ofNat (48 + n % 10) :: acc
    if n / 10 = 0 then acc else decimalCore fuel (n / 10) acc

/-- `strconv.Itoa` of a natural number. -/
def decimal (n : Nat) : List UInt8 := decimalCore (n + 1) n []

/-- `strconv.Itoa`, the `%d` of an `int`. -/
def itoa : Int → List UInt8
  | .ofNat n => decimal n
  | .negSucc n => 45 :: decimal (n + 1)

/-- The value of a string of decimal digits, most significant first, read after `n`. -/
def hornerFrom (n : Nat) (s : List UInt8) : Nat := s.foldl (fun a d => a * 10 + digitVal d) n

theorem le_hornerFrom (n : Nat) (s : List UInt8) : n ≤ hornerFrom n s := by
  induction s generalizing n with
  | nil => exact le_rfl
  | cons d s ih => exact le_trans (by omega) (ih (n * 10 + digitVal d))

/-- The `ParseUint` loop reads digits whole, or stops at `maxUint64` with a range error. -/
theorem parseUintLoop_of_digits {s : List UInt8} (hs : ∀ b ∈ s, isDigit b) :
    ∀ n, n ≤ maxUint64 → parseUintLoop n s =
      if hornerFrom n s ≤ maxUint64 then (hornerFrom n s, none) else (maxUint64, some .errRange) := by
  induction s with
  | nil => intro n hn; simp [parseUintLoop, hornerFrom, hn]
  | cons d s ih =>
    intro n hn
    have hd := hs d (by simp)
    have hnext : hornerFrom n (d :: s) = hornerFrom (n * 10 + digitVal d) s := rfl
    have hlow := le_hornerFrom (n * 10 + digitVal d) s
    simp only [parseUintLoop, hd, if_true, hnext]
    by_cases hc : uint64Cutoff ≤ n
    · have : maxUint64 < n * 10 := by simp only [uint64Cutoff, maxUint64] at hc ⊢; omega
      simp [hc, show ¬hornerFrom (n * 10 + digitVal d) s ≤ maxUint64 by omega]
    · by_cases hover : maxUint64 < n * 10 + digitVal d
      · simp [hc, hover, show ¬hornerFrom (n * 10 + digitVal d) s ≤ maxUint64 by omega]
      · simp only [hc, hover, if_false]
        exact ih (fun b hb => hs b (by simp [hb])) _ (by omega)

/-- `Atoi` of digits: the value clamped to `int`, with a range error from `2 ^ 63` on. -/
theorem atoi_of_digits {s : List UInt8} (hne : s ≠ []) (hs : ∀ b ∈ s, isDigit b) :
    atoi s = if 2 ^ 63 ≤ hornerFrom 0 s then (2 ^ 63 - 1, some ⟨s, .errRange⟩)
      else ((hornerFrom 0 s : Int), none) := by
  obtain ⟨c, r, rfl⟩ := List.exists_cons_of_ne_nil hne
  have hc := hs c (by simp)
  have h43 : c ≠ 43 := ne_of_isDigit hc (by decide)
  have h45 : c ≠ 45 := ne_of_isDigit hc (by decide)
  have hloop := parseUintLoop_of_digits hs 0 (by simp [maxUint64])
  have hmax : 2 ^ 63 ≤ maxUint64 := by decide
  by_cases hfit : hornerFrom 0 (c :: r) ≤ maxUint64
  · rw [if_pos hfit] at hloop
    simp only [atoi, parseInt, parseUint, reduceCtorEq, if_false, h43, h45, hloop, Bool.not_false,
      Bool.true_and, Bool.false_and, decide_eq_true_eq, Bool.false_eq_true]
    split_ifs <;> rfl
  · rw [if_neg hfit] at hloop
    have hbig : 2 ^ 63 ≤ hornerFrom 0 (c :: r) := le_trans hmax (Nat.le_of_not_le hfit)
    simp only [atoi, parseInt, parseUint, reduceCtorEq, if_false, h43, h45, hloop, Bool.not_false,
      Bool.true_and, decide_eq_true_eq, if_pos hmax, if_pos hbig]
    rfl

/-- `ParseUint` stops with an error at the first byte that is not a digit. -/
theorem parseUintLoop_stop {c : UInt8} {e : List UInt8} (hc : isDigit c = false) :
    ∀ {d : List UInt8} (n : Nat), (∀ b ∈ d, isDigit b) →
      parseUintLoop n (d ++ c :: e) = (0, some .errSyntax) ∨
        parseUintLoop n (d ++ c :: e) = (maxUint64, some .errRange)
  | [], n, _ => by simp [parseUintLoop, hc]
  | b :: d, n, hd => by
    simp only [List.cons_append, parseUintLoop, hd b (by simp), if_true]
    split_ifs
    · exact .inr rfl
    · exact .inr rfl
    · exact parseUintLoop_stop hc _ fun b hb => hd b (by simp [hb])

/-- `Atoi` fails on digits followed by a byte that is not a digit, as `8x8` is. -/
theorem atoi_error_of_stop {d e : List UInt8} {c : UInt8} (hne : d ≠ []) (hd : ∀ b ∈ d, isDigit b)
    (hc : isDigit c = false) : (atoi (d ++ c :: e)).2.isSome := by
  obtain ⟨b, d, rfl⟩ := List.exists_cons_of_ne_nil hne
  have hb := hd b (by simp)
  have h43 : b ≠ 43 := ne_of_isDigit hb (by decide)
  have h45 : b ≠ 45 := ne_of_isDigit hb (by decide)
  simp only [atoi, parseInt, parseUint, List.cons_append, reduceCtorEq, if_false, h43, h45]
  rcases parseUintLoop_stop (e := e) hc 0 hd with h | h <;>
    simp only [List.cons_append] at h <;> simp [h, maxUint64]

theorem decimalCore_append : ∀ (fuel n : Nat) (acc : List UInt8),
    decimalCore fuel n acc = decimalCore fuel n [] ++ acc
  | 0, _, _ => rfl
  | fuel + 1, n, acc => by
    simp only [decimalCore]
    split_ifs
    · rfl
    · rw [decimalCore_append fuel (n / 10) (_ :: acc), decimalCore_append fuel (n / 10) [_]]
      simp

theorem toNat_digitByte (n : Nat) : (UInt8.ofNat (48 + n % 10)).toNat = 48 + n % 10 :=
  UInt8.toNat_ofNat_of_lt (by show 48 + n % 10 < 256; omega)

theorem decimalCore_digits : ∀ (fuel n : Nat) (acc : List UInt8), (∀ b ∈ acc, isDigit b) →
    ∀ b ∈ decimalCore fuel n acc, isDigit b
  | 0, _, _, h => h
  | fuel + 1, n, acc, h => by
    have hd : ∀ b ∈ UInt8.ofNat (48 + n % 10) :: acc, isDigit b := by
      intro b hb
      rcases List.mem_cons.mp hb with rfl | hb
      · simp only [isDigit, toNat_digitByte, Bool.and_eq_true, decide_eq_true_eq]; omega
      · exact h b hb
    simp only [decimalCore]
    split_ifs
    · exact hd
    · exact decimalCore_digits fuel (n / 10) _ hd

theorem hornerFrom_append_singleton (n : Nat) (s : List UInt8) (d : UInt8) :
    hornerFrom n (s ++ [d]) = hornerFrom n s * 10 + digitVal d := by
  simp [hornerFrom, List.foldl_append]

theorem hornerFrom_decimalCore : ∀ (fuel n : Nat), n < fuel → hornerFrom 0 (decimalCore fuel n []) = n
  | 0, _, h => absurd h (Nat.not_lt_zero _)
  | fuel + 1, n, h => by
    have hv : digitVal (UInt8.ofNat (48 + n % 10)) = n % 10 := by
      simp only [digitVal, toNat_digitByte]; omega
    simp only [decimalCore]
    split_ifs with h0
    · simp only [hornerFrom, List.foldl, hv]; omega
    · rw [decimalCore_append, hornerFrom_append_singleton,
        hornerFrom_decimalCore fuel (n / 10) (by omega), hv]
      omega

theorem decimal_ne_nil (n : Nat) : decimal n ≠ [] := by
  simp only [decimal, decimalCore]
  split_ifs
  · simp
  · rw [decimalCore_append]; simp

theorem decimal_digits (n : Nat) : ∀ b ∈ decimal n, isDigit b :=
  decimalCore_digits _ n [] (by simp)

theorem hornerFrom_decimal (n : Nat) : hornerFrom 0 (decimal n) = n :=
  hornerFrom_decimalCore _ n (by omega)

/-- `Atoi` reads back what `Itoa` writes, for every value of `int` that is not negative. -/
theorem atoi_decimal {n : Nat} (h : n < 2 ^ 63) : atoi (decimal n) = ((n : Int), none) := by
  rw [atoi_of_digits (decimal_ne_nil n) (decimal_digits n), hornerFrom_decimal, if_neg (by omega)]

theorem hornerFrom_lt_pow {s : List UInt8} (hs : ∀ b ∈ s, isDigit b) (n : Nat) :
    hornerFrom n s < (n + 1) * 10 ^ s.length := by
  induction s generalizing n with
  | nil => simp [hornerFrom]
  | cons d s ih =>
    have hd : digitVal d ≤ 9 := by
      have := hs d (by simp)
      simp only [isDigit, Bool.and_eq_true, decide_eq_true_eq] at this
      simp only [digitVal]; omega
    calc hornerFrom n (d :: s) = hornerFrom (n * 10 + digitVal d) s := rfl
      _ < (n * 10 + digitVal d + 1) * 10 ^ s.length := ih (fun b hb => hs b (by simp [hb])) _
      _ ≤ (n + 1) * 10 ^ (d :: s).length := by
        rw [List.length_cons, Nat.pow_succ, Nat.mul_comm (10 ^ _) 10, ← Nat.mul_assoc]
        exact Nat.mul_le_mul_right _ (by omega)

theorem length_decimalCore_le : ∀ (fuel n k : Nat) (acc : List UInt8), n < 10 ^ k → 0 < k →
    (decimalCore fuel n acc).length ≤ k + acc.length
  | 0, _, _, _, _, _ => by simp [decimalCore]
  | fuel + 1, n, k, acc, h, hk => by
    simp only [decimalCore]
    split_ifs with h0
    · simp; omega
    · obtain ⟨k, rfl⟩ : ∃ j, k = j + 1 := ⟨k - 1, by omega⟩
      have hk' : 0 < k := Nat.pos_of_ne_zero (by rintro rfl; simp at h; omega)
      have := length_decimalCore_le fuel (n / 10) k (UInt8.ofNat (48 + n % 10) :: acc)
        (by rw [Nat.pow_succ] at h; omega) hk'
      simp only [List.length_cons] at this; omega

theorem length_decimal_le {n k : Nat} (h : n < 10 ^ k) (hk : 0 < k) : (decimal n).length ≤ k := by
  simpa using length_decimalCore_le (n + 1) n k [] h hk

/-- What `Atoi` reads off digits is an `int` that `Itoa` writes in no more digits. -/
theorem atoi_of_digits_le {s : List UInt8} (hne : s ≠ []) (hs : ∀ b ∈ s, isDigit b) :
    ∃ v : Nat, (atoi s).1 = v ∧ v < 2 ^ 63 ∧ (decimal v).length ≤ s.length := by
  have hlt := hornerFrom_lt_pow hs 0
  have hpos : 0 < s.length := List.length_pos.mpr hne
  rw [atoi_of_digits hne hs]
  split_ifs with hbig
  · exact ⟨2 ^ 63 - 1, rfl, by omega, length_decimal_le (by omega) hpos⟩
  · exact ⟨hornerFrom 0 s, rfl, by omega, length_decimal_le (by omega) hpos⟩

end Bxmp
