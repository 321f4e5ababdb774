import Bxmp.Regexp

namespace Bxmp

/-- `fullTypeRegex`, ``([a-zA-Z0-9]+)(\[([0-9]*)\])?``. -/
def fullTypeRegex : Regex :=
  .concat (.capture 1 (.plus isAlnum))
    (.quest (.capture 2 (.concat (.literal 91) (.concat (.capture 3 (.star isDigit)) (.literal 93)))))

/-- `typeRegex`, `([a-zA-Z]+)(([0-9]+)(x([0-9]+))?)?`. -/
def typeRegex : Regex :=
  .concat (.capture 1 (.plus isLetter))
    (.quest (.capture 2 (.concat (.capture 3 (.plus isDigit))
      (.quest (.capture 4 (.concat (.literal 120) (.capture 5 (.plus isDigit))))))))

/-- `\[([0-9]*)\]` at the head of the input: its digits and what follows the `]`. -/
def bracketGroup : List UInt8 → Option (List UInt8 × List UInt8)
  | c :: s =>
    if c = 91 then
      match s.dropWhile isDigit with
      | e :: rest => if e = 93 then some (s.takeWhile isDigit, rest) else none
      | [] => none
    else none
  | [] => none

/-- The groups of a `fullTypeRegex` match at the head of `s`: the whole match, the
alphanumeric name, the bracket group and its digits. -/
def fullTypeGroups (s : List UInt8) : List (List UInt8) :=
  let name := s.takeWhile isAlnum
  match bracketGroup (s.dropWhile isAlnum) with
  | some (d, _) => [name ++ 91 :: d ++ [93], name, 91 :: d ++ [93], d]
  | none => [name, name, [], []]

/-- The first match of `fullTypeRegex` read off the input: it starts at the first
alphanumeric byte. -/
def fullTypeMatch (t : List UInt8) : Option (List (List UInt8)) :=
  match t.dropWhile (fun c => !isAlnum c) with
  | [] => none
  | s => some (fullTypeGroups s)

/-- `x([0-9]+)` at the head of the input: its digits. -/
def xGroup : List UInt8 → Option (List UInt8)
  | c :: s => if c = 120 ∧ s.takeWhile isDigit ≠ [] then some (s.takeWhile isDigit) else none
  | [] => none

/-- The groups of a `typeRegex` match at the head of `s`: the whole match, the letters,
the size with its digits, and the `x` part with its digits. -/
def typeGroups (s : List UInt8) : List (List UInt8) :=
  let name := s.takeWhile isLetter
  let d := (s.dropWhile isLetter).takeWhile isDigit
  if d = [] then [name, name, [], [], [], []]
  else
    match xGroup ((s.dropWhile isLetter).dropWhile isDigit) with
    | some e => [name ++ d ++ 120 :: e, name, d ++ 120 :: e, d, 120 :: e, e]
    | none => [name ++ d, name, d, d, [], []]

/-- The first match of `typeRegex` read off the input: it starts at the first letter. -/
def typeMatch (u : List UInt8) : Option (List (List UInt8)) :=
  match u.dropWhile (fun c => !isLetter c) with
  | [] => none
  | s => some (typeGroups s)

theorem bracketGroup_eq_some {s d rest : List UInt8} (h : bracketGroup s = some (d, rest)) :
    s = 91 :: (d ++ 93 :: rest) ∧ ∀ b ∈ d, isDigit b := by
  match s, h with
  | c :: s, h =>
    simp only [bracketGroup] at h
    split_ifs at h with hc
    subst hc
    split at h
    next e rest' he =>
      split_ifs at h with he'
      cases h
      subst he'
      refine ⟨?_, fun b hb => List.mem_takeWhile_imp hb⟩
      rw [← he, List.takeWhile_append_dropWhile]
    next => cases h

variable {α : Type}

theorem run_bracket (cap : Caps) (s : List UInt8) (j : Nat) (k : Caps → List UInt8 → Nat → Option α) :
    (Regex.capture 2 (.concat (.literal 91) (.concat (.capture 3 (.star isDigit)) (.literal 93)))).run
        cap s j k =
      match bracketGroup s with
      | some (d, rest) =>
        k ((cap.set 3 (j + 1) (j + 1 + d.length)).set 2 j (j + 1 + d.length + 1)) rest
          (j + 1 + d.length + 1)
      | none => none := by
  match s with
  | [] => rfl
  | c :: s =>
    by_cases hc : c = 91
    · subst hc
      have stop : ∀ b s e, isDigit b = true →
          (Regex.literal 93).run (cap.set 3 (j + 1) e) (b :: s) e
            (fun cap s e => k (cap.set 2 j e) s e) = none := by
        intro b s e hb
        simp [ne_of_isDigit hb (show isDigit 93 = false by decide)]
      simp only [Regex.run_capture, Regex.run_concat, Regex.run_literal_cons, if_true,
        Regex.run_star]
      rw [greedy_of_stop stop]
      cases hs : s.dropWhile isDigit with
      | nil => simp [bracketGroup, hs]
      | cons e rest => by_cases he : e = 93 <;> simp [bracketGroup, hs, he]
    · simp [bracketGroup, hc]

theorem matchAt_fullTypeRegex {c : UInt8} {s : List UInt8} {i : Nat} (hc : isAlnum c) :
    fullTypeRegex.matchAt (c :: s) i =
      let j := i + 1 + (s.takeWhile isAlnum).length
      let name : Caps := Caps.set (fun _ => none) 1 i j
      match bracketGroup (s.dropWhile isAlnum) with
      | some (d, _) =>
        some (((name.set 3 (j + 1) (j + 1 + d.length)).set 2 j (j + 1 + d.length + 1)).set 0 i
          (j + 1 + d.length + 1))
      | none => some (name.set 0 i j) := by
  simp only [Regex.matchAt, fullTypeRegex, Regex.run_capture, Regex.run_concat]
  rw [Regex.run_plus_of_total hc fun _ _ _ => Regex.run_quest_isSome (by simp) _ _ _]
  simp only [Regex.run_quest, run_bracket]
  split <;> simp

private theorem range_four : List.range 4 = [0, 1, 2, 3] := rfl

theorem search_fullTypeRegex {t : List UInt8} : ∀ (s : List UInt8) (i : Nat), t.drop i = s →
    (fullTypeRegex.search s i).map (fun cap => (List.range 4).map fun n => slot t (cap n)) =
      fullTypeMatch s
  | [], i, _ => rfl
  | c :: s, i, ht => by
    by_cases hc : isAlnum c
    · have hname : t.drop i = (c :: s.takeWhile isAlnum) ++ s.dropWhile isAlnum := by
        rw [ht, List.cons_append, List.takeWhile_append_dropWhile]
      have hd : (c :: s).dropWhile isAlnum = s.dropWhile isAlnum := by simp [hc]
      have ht' : (c :: s).takeWhile isAlnum = c :: s.takeWhile isAlnum := by simp [hc]
      have hm : (c :: s).dropWhile (fun c => !isAlnum c) = c :: s := by simp [hc]
      rw [Regex.search, matchAt_fullTypeRegex hc, fullTypeMatch, hm]
      simp only [fullTypeGroups, hd, ht']
      split
      next d rest hb =>
        obtain ⟨hs, -⟩ := bracketGroup_eq_some hb
        rw [hs] at hname
        have h₂ := drop_of_drop_eq_append (b := i + 1 + (s.takeWhile isAlnum).length) hname
          (by simp; omega)
        have h₃ := drop_of_drop_eq_append (u := [91]) h₂ rfl
        simp only [Option.some_orElse, Option.map_some', Option.some.injEq, range_four,
          List.map_cons, List.map_nil, Caps.set_apply, Nat.reduceEqDiff, ↓reduceIte, List.cons.injEq, and_true]
        refine ⟨slot_of_drop (v := rest) (by simp [hname]) (by simp; omega),
          slot_of_drop (u := c :: s.takeWhile isAlnum) hname (by simp; omega),
          slot_of_drop (v := rest) (by simp [h₂]) (by simp; omega), slot_of_drop h₃ rfl⟩
      next hb =>
        simp only [Option.some_orElse, Option.map_some', Option.some.injEq, range_four,
          List.map_cons, List.map_nil, Caps.set_apply, Nat.reduceEqDiff, ↓reduceIte, List.cons.injEq, and_true]
        have h₁ := slot_of_drop (u := c :: s.takeWhile isAlnum)
          (b := i + 1 + (s.takeWhile isAlnum).length) hname (by simp; omega)
        exact ⟨h₁, h₁, rfl, rfl⟩
    · have hm : fullTypeRegex.matchAt (c :: s) i = none := by
        simp [Regex.matchAt, fullTypeRegex, hc]
      rw [Regex.search_cons_of_none hm, search_fullTypeRegex s (i + 1) (by rw [← List.drop_drop, ht]; rfl)]
      simp [fullTypeMatch, hc]

/-- `fullTypeRegex` finds the first alphanumeric run and the bracket group after it. -/
theorem findStringSubmatch_fullTypeRegex (t : List UInt8) :
    fullTypeRegex.findStringSubmatch t = fullTypeMatch t :=
  search_fullTypeRegex t 0 rfl

theorem xGroup_eq_some {s e : List UInt8} (h : xGroup s = some e) :
    s = 120 :: (e ++ (s.drop 1).dropWhile isDigit) ∧ e ≠ [] ∧ ∀ b ∈ e, isDigit b := by
  match s, h with
  | c :: s, h =>
    simp only [xGroup] at h
    split_ifs at h with hc
    cases h
    obtain ⟨rfl, hne⟩ := hc
    exact ⟨by simp, hne, fun b hb => List.mem_takeWhile_imp hb⟩

theorem run_xGroup (cap : Caps) (s : List UInt8) (j : Nat) {k : Caps → List UInt8 → Nat → Option α}
    (hk : ∀ cap s j, (k cap s j).isSome) :
    (Regex.capture 4 (.concat (.literal 120) (.capture 5 (.plus isDigit)))).run cap s j k =
      match xGroup s with
      | some e =>
        k ((cap.set 5 (j + 1) (j + 1 + e.length)).set 4 j (j + 1 + e.length))
          ((s.drop 1).dropWhile isDigit) (j + 1 + e.length)
      | none => none := by
  match s with
  | [] => rfl
  | c :: [] => by_cases hc : c = 120 <;> simp [xGroup, hc]
  | c :: b :: s =>
    by_cases hc : c = 120
    · by_cases hb : isDigit b
      · subst hc
        simp only [Regex.run_capture, Regex.run_concat, Regex.run_literal_cons, if_true]
        rw [Regex.run_plus_of_total hb fun _ _ _ => hk _ _ _]
        have e : j + 1 + ((s.takeWhile isDigit).length + 1) =
            j + 1 + 1 + (s.takeWhile isDigit).length := by omega
        simp [xGroup, hb, e]
      · simp [xGroup, hb]
    · simp [xGroup, hc]

theorem run_sizeGroup (cap : Caps) (s : List UInt8) (j : Nat) {k : Caps → List UInt8 → Nat → Option α}
    (hk : ∀ cap s j, (k cap s j).isSome) :
    (Regex.capture 2 (.concat (.capture 3 (.plus isDigit))
        (.quest (.capture 4 (.concat (.literal 120) (.capture 5 (.plus isDigit))))))).run cap s j k =
      match s with
      | d :: r =>
        if isDigit d then
          let j₂ := j + 1 + (r.takeWhile isDigit).length
          match xGroup (r.dropWhile isDigit) with
          | some e =>
            k ((((cap.set 3 j j₂).set 5 (j₂ + 1) (j₂ + 1 + e.length)).set 4 j₂ (j₂ + 1 + e.length)).set 2
              j (j₂ + 1 + e.length)) (((r.dropWhile isDigit).drop 1).dropWhile isDigit) (j₂ + 1 + e.length)
          | none => k ((cap.set 3 j j₂).set 2 j j₂) (r.dropWhile isDigit) j₂
        else none
      | [] => none := by
  match s with
  | [] => rfl
  | d :: r =>
    by_cases hd : isDigit d
    · rw [Regex.run_capture, Regex.run_concat, Regex.run_capture,
        Regex.run_plus_of_total hd fun _ _ _ => Regex.run_quest_isSome (by simp [hk]) _ _ _,
        Regex.run_quest, run_xGroup _ _ _ (by simp [hk])]
      simp only [hd, if_true]
      split
      · exact orElse_of_isSome (hk _ _ _) _
      · rfl
    · simp [hd]

theorem matchAt_typeRegex {c : UInt8} {s : List UInt8} {i : Nat} (hc : isLetter c) :
    typeRegex.matchAt (c :: s) i =
      let j := i + 1 + (s.takeWhile isLetter).length
      let name : Caps := Caps.set (fun _ => none) 1 i j
      match s.dropWhile isLetter with
      | d :: r =>
        if isDigit d then
          let j₂ := j + 1 + (r.takeWhile isDigit).length
          match xGroup (r.dropWhile isDigit) with
          | some e =>
            some (((((name.set 3 j j₂).set 5 (j₂ + 1) (j₂ + 1 + e.length)).set 4 j₂
              (j₂ + 1 + e.length)).set 2 j (j₂ + 1 + e.length)).set 0 i (j₂ + 1 + e.length))
          | none => some (((name.set 3 j j₂).set 2 j j₂).set 0 i j₂)
        else some (name.set 0 i j)
      | [] => some (name.set 0 i j) := by
  rw [Regex.matchAt, typeRegex, Regex.run_capture, Regex.run_concat, Regex.run_capture,
    Regex.run_plus_of_total hc fun _ _ _ => Regex.run_quest_isSome (by simp) _ _ _,
    Regex.run_quest, run_sizeGroup _ _ _ (by simp)]
  cases s.dropWhile isLetter with
  | nil => simp
  | cons d r =>
    by_cases hd : isDigit d
    · simp only [hd, if_true]
      split <;> simp
    · simp [hd]

private theorem range_six : List.range 6 = [0, 1, 2, 3, 4, 5] := rfl

theorem search_typeRegex {t : List UInt8} : ∀ (s : List UInt8) (i : Nat), t.drop i = s →
    (typeRegex.search s i).map (fun cap => (List.range 6).map fun n => slot t (cap n)) =
      typeMatch s
  | [], i, _ => rfl
  | c :: s, i, ht => by
    by_cases hc : isLetter c
    · have hname : t.drop i = (c :: s.takeWhile isLetter) ++ s.dropWhile isLetter := by
        rw [ht, List.cons_append, List.takeWhile_append_dropWhile]
      have hd : (c :: s).dropWhile isLetter = s.dropWhile isLetter := by simp [hc]
      have ht' : (c :: s).takeWhile isLetter = c :: s.takeWhile isLetter := by simp [hc]
      have hm : (c :: s).dropWhile (fun c => !isLetter c) = c :: s := by simp [hc]
      rw [Regex.search, matchAt_typeRegex hc, typeMatch, hm]
      simp only [typeGroups, hd, ht']
      have h₁ := slot_of_drop (u := c :: s.takeWhile isLetter)
        (b := i + 1 + (s.takeWhile isLetter).length) hname (by simp; omega)
      cases hr : s.dropWhile isLetter with
      | nil =>
        simp only [List.takeWhile_nil, if_true, Option.some_orElse, Option.map_some', range_six,
          List.map_cons, List.map_nil, Caps.set_apply, Nat.reduceEqDiff, ↓reduceIte, h₁]
        rfl
      | cons d r =>
        rw [hr] at hname
        by_cases hdig : isDigit d
        · have hD : d :: r = (d :: r.takeWhile isDigit) ++ r.dropWhile isDigit := by
            rw [List.cons_append, List.takeWhile_append_dropWhile]
          rw [hD] at hname
          have h₂ := drop_of_drop_eq_append (b := i + 1 + (s.takeWhile isLetter).length) hname
            (by simp; omega)
          have h₃ := drop_of_drop_eq_append
            (b := i + 1 + (s.takeWhile isLetter).length + 1 + (r.takeWhile isDigit).length) h₂
            (by simp; omega)
          simp only [List.takeWhile_cons, hdig, if_true, reduceCtorEq, if_false, List.dropWhile_cons]
          split
          next e hx =>
            obtain ⟨hrest, -, -⟩ := xGroup_eq_some hx
            generalize ((r.dropWhile isDigit).drop 1).dropWhile isDigit = rest at hrest
            rw [hrest] at hname h₂ h₃
            have h₄ := drop_of_drop_eq_append (u := [120]) h₃ rfl
            simp only [Option.some_orElse, Option.map_some', range_six, List.map_cons, List.map_nil,
              Caps.set_apply, Nat.reduceEqDiff, ↓reduceIte, Option.some.injEq, List.cons.injEq,
              and_true]
            exact ⟨slot_of_drop (v := rest) (by simp [hname]) (by simp; omega), h₁,
              slot_of_drop (v := rest) (by simp [h₂]) (by simp; omega),
              slot_of_drop h₂ (by simp; omega),
              slot_of_drop (v := rest) (by simp [h₃]) (by simp; omega),
              slot_of_drop h₄ (by simp)⟩
          next hx =>
            simp only [Option.some_orElse, Option.map_some', range_six, List.map_cons, List.map_nil,
              Caps.set_apply, Nat.reduceEqDiff, ↓reduceIte, Option.some.injEq, List.cons.injEq, and_true]
            have h₅ := slot_of_drop (b := i + 1 + (s.takeWhile isLetter).length + 1 +
              (r.takeWhile isDigit).length) h₂ (by simp; omega)
            exact ⟨slot_of_drop (v := r.dropWhile isDigit) (by simp [hname]) (by simp; omega), h₁,
              h₅, h₅, rfl, rfl⟩
        · simp only [Bool.not_eq_true] at hdig
          simp only [List.takeWhile_cons, hdig, Bool.false_eq_true, if_false, if_true,
            Option.some_orElse, Option.map_some', range_six, List.map_cons, List.map_nil,
            Caps.set_apply, Nat.reduceEqDiff, ↓reduceIte, h₁]
          rfl
    · have hm : typeRegex.matchAt (c :: s) i = none := by
        simp [Regex.matchAt, typeRegex, hc]
      rw [Regex.search_cons_of_none hm, search_typeRegex s (i + 1) (by rw [← List.drop_drop, ht]; rfl)]
      simp [typeMatch, hc]

/-- `typeRegex` finds the first run of letters, the digits after it, and an `x` part. -/
theorem findStringSubmatch_typeRegex (u : List UInt8) :
    typeRegex.findStringSubmatch u = typeMatch u :=
  search_typeRegex u 0 rfl

/-- The first alphanumeric run of `t`, which the match of `fullTypeRegex` names `res[1]`. -/
def firstName (t : List UInt8) : List UInt8 := (t.dropWhile (fun c => !isAlnum c)).takeWhile isAlnum

theorem firstName_alnum (t : List UInt8) : ∀ b ∈ firstName t, isAlnum b :=
  fun _ hb => List.mem_takeWhile_imp hb

theorem dropWhile_not_eq_cons {p : UInt8 → Bool} {t s : List UInt8} {c : UInt8}
    (h : t.dropWhile (fun b => !p b) = c :: s) : p c = true := by
  have := List.head?_dropWhile_not (fun b => !p b) t
  simp only [h, List.head?_cons, Bool.not_eq_false'] at this
  exact this

theorem firstName_firstName (t : List UInt8) : firstName (firstName t) = firstName t := by
  have h := firstName_alnum t
  unfold firstName at h ⊢
  cases hd : (t.dropWhile (fun c => !isAlnum c)).takeWhile isAlnum with
  | nil => rfl
  | cons c r =>
    rw [hd] at h
    rw [List.dropWhile_cons_of_neg (by simp [h c (List.mem_cons_self c r)]),
      List.takeWhile_eq_self_iff.mpr h]

/-- `fullTypeRegex` finds no match exactly when `t` has no alphanumeric byte. -/
theorem fullTypeMatch_eq_none_iff (t : List UInt8) : fullTypeMatch t = none ↔ firstName t = [] := by
  unfold fullTypeMatch firstName
  cases h : t.dropWhile (fun c => !isAlnum c) with
  | nil => simp
  | cons c r => simp [dropWhile_not_eq_cons h]

theorem name_of_fullTypeMatch {t : List UInt8} {res : List (List UInt8)}
    (h : fullTypeMatch t = some res) :
    res.getD 1 [] = firstName t ∧ firstName t ≠ [] ∧ res.getD 0 [] ≠ [] := by
  have hne : firstName t ≠ [] := fun hn => by simp [(fullTypeMatch_eq_none_iff t).mpr hn] at h
  unfold fullTypeMatch at h
  cases hd : t.dropWhile (fun c => !isAlnum c) with
  | nil => simp [hd] at h
  | cons c r =>
    simp only [hd, Option.some.injEq] at h
    subst h
    have hname : (c :: r).takeWhile isAlnum = firstName t := by rw [firstName, hd]
    simp only [fullTypeGroups, hname]
    split <;> simpa using hne

/-- A match of `fullTypeRegex` is the name alone or the name and a bracket group. -/
theorem fullTypeMatch_shape {t : List UInt8} {res : List (List UInt8)} (h : fullTypeMatch t = some res) :
    res = [firstName t, firstName t, [], []] ∨
      ∃ junk d rest, (∀ b ∈ d, isDigit b) ∧
        res = [firstName t ++ 91 :: d ++ [93], firstName t, 91 :: d ++ [93], d] ∧
        t = junk ++ firstName t ++ 91 :: (d ++ 93 :: rest) := by
  unfold fullTypeMatch at h
  cases hd : t.dropWhile (fun c => !isAlnum c) with
  | nil => simp [hd] at h
  | cons c r =>
    simp only [hd, Option.some.injEq] at h
    subst h
    have hname : (c :: r).takeWhile isAlnum = firstName t := by rw [firstName, hd]
    simp only [fullTypeGroups, hname]
    cases hb : bracketGroup ((c :: r).dropWhile isAlnum) with
    | none => exact .inl rfl
    | some p =>
      obtain ⟨hs, hdig⟩ := bracketGroup_eq_some hb
      refine .inr ⟨t.takeWhile (fun c => !isAlnum c), p.1, p.2, hdig, rfl, ?_⟩
      rw [← hs, ← hname, List.append_assoc, List.takeWhile_append_dropWhile, ← hd,
        List.takeWhile_append_dropWhile]

theorem fullTypeMatch_name {w : List UInt8} (hne : w ≠ []) (hw : ∀ b ∈ w, isAlnum b) :
    fullTypeMatch w = some [w, w, [], []] := by
  obtain ⟨c, r, rfl⟩ := List.exists_cons_of_ne_nil hne
  have hc := hw c (by simp)
  have hd : (c :: r).dropWhile isAlnum = [] := List.dropWhile_eq_nil_iff.mpr hw
  have ht : (c :: r).takeWhile isAlnum = c :: r := List.takeWhile_eq_self_iff.mpr hw
  simp [fullTypeMatch, fullTypeGroups, hc, hd, ht, bracketGroup]

end Bxmp
