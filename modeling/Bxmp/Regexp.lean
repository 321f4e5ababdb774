import Bxmp.Bytes

namespace Bxmp

/-- The fragment of RE2 syntax (`regexp/syntax.Op`) the ABI type patterns are written
in. Repetition applies to one character class, as every `*` and `+` of `type.go`
does; a capture carries the index RE2 gives its opening parenthesis. -/
inductive Regex
  | charClass (p : UInt8 → Bool)
  | star (p : UInt8 → Bool)
  | concat (r s : Regex)
  | quest (r : Regex)
  | capture (n : Nat) (r : Regex)

/-- Capture slots: capture `n` spans the input between two byte offsets. -/
abbrev Caps := Nat → Option (Nat × Nat)

/-- Record the span `[i, j)` for capture `n`. -/
def Caps.set (cap : Caps) (n i j : Nat) : Caps := fun m => if m = n then some (i, j) else cap m

@[simp] theorem Caps.set_apply (cap : Caps) (n i j m : Nat) :
    cap.set n i j m = if m = n then some (i, j) else cap m := rfl

/-- Greedy repetition of a class: the continuation is tried after the longest run
first and then after each shorter one, in the order a backtracking matcher tries them. -/
def greedy {α : Type} (p : UInt8 → Bool) (k : List UInt8 → Nat → Option α) :
    List UInt8 → Nat → Option α
  | [], i => k [] i
  | c :: s, i => if p c then greedy p k s (i + 1) <|> k (c :: s) i else k (c :: s) i

namespace Regex

/-- `x+`, which RE2 compiles as `xx*`. -/
def plus (p : UInt8 → Bool) : Regex := concat (charClass p) (star p)

/-- A literal byte. -/
def literal (c : UInt8) : Regex := charClass (· == c)

/-- `NumSubexp`: the number of parenthesised subexpressions. -/
def numSubexp : Regex → Nat
  | charClass _ | star _ => 0
  | concat r s => r.numSubexp + s.numSubexp
  | quest r => r.numSubexp
  | capture _ r => r.numSubexp + 1

/-- Leftmost-first matching, the semantics Go's `regexp` gives submatches: `r` at offset
`i`, whose rest of the input is `s`, hands each way it can match to the continuation
`k` in the order a backtracking implementation tries them, and the first one `k`
accepts is kept. -/
def run {α : Type} :
    Regex → Caps → List UInt8 → Nat → (Caps → List UInt8 → Nat → Option α) → Option α
  | charClass p, cap, c :: s, i, k => if p c then k cap s (i + 1) else none
  | charClass _, _, [], _, _ => none
  | star p, cap, s, i, k => greedy p (k cap) s i
  | concat r₁ r₂, cap, s, i, k => r₁.run cap s i fun cap s i => r₂.run cap s i k
  | quest r, cap, s, i, k => r.run cap s i k <|> k cap s i
  | capture n r, cap, s, i, k => r.run cap s i fun cap s j => k (cap.set n i j) s j

/-- The captures of the first match of `r` that starts at offset `i`, the whole match
being capture 0. -/
def matchAt (r : Regex) (s : List UInt8) (i : Nat) : Option Caps :=
  (capture 0 r).run (fun _ => none) s i fun cap _ _ => some cap

/-- The leftmost match: offsets are tried from `i` on. -/
def search (r : Regex) : List UInt8 → Nat → Option Caps
  | [], i => r.matchAt [] i
  | c :: s, i => r.matchAt (c :: s) i <|> r.search s (i + 1)

end Regex

/-- Go's `t[a:b]` for a capture, and `""` for a capture that took no part in the match. -/
def slot (t : List UInt8) : Option (Nat × Nat) → List UInt8
  | some (a, b) => (t.drop a).take (b - a)
  | none => []

/-- `re.FindStringSubmatch(t)`: the leftmost match and each capture. It is also
`re.FindAllStringSubmatch(t, -1)[0]` whenever there is a match, since `allMatches`
delivers the leftmost match first and unconditionally; with no match that list is
empty. -/
def Regex.findStringSubmatch (r : Regex) (t : List UInt8) : Option (List (List UInt8)) :=
  (r.search t 0).map fun cap => (List.range (r.numSubexp + 1)).map fun n => slot t (cap n)

variable {α : Type} {p : UInt8 → Bool}

theorem orElse_of_isSome {x : Option α} (h : x.isSome) (y : Option α) : (x <|> y) = x := by
  obtain ⟨v, rfl⟩ := Option.isSome_iff_exists.mp h
  rfl

/-- With a continuation that accepts after the longest run, the run is taken whole. -/
theorem greedy_of_isSome {k : List UInt8 → Nat → Option α} :
    ∀ (s : List UInt8) (i : Nat), (k (s.dropWhile p) (i + (s.takeWhile p).length)).isSome →
      greedy p k s i = k (s.dropWhile p) (i + (s.takeWhile p).length)
  | [], i, _ => by simp [greedy]
  | c :: s, i, h => by
    by_cases hc : p c
    · have hs : i + ((s.takeWhile p).length + 1) = i + 1 + (s.takeWhile p).length := by omega
      simp only [List.dropWhile_cons, List.takeWhile_cons, hc, if_true, List.length_cons, hs] at h ⊢
      simp only [greedy, hc, if_true, greedy_of_isSome s (i + 1) h, orElse_of_isSome h]
    · simp [greedy, hc]

/-- A continuation that fails on a rest starting in the class leaves only the longest run. -/
theorem greedy_of_stop {k : List UInt8 → Nat → Option α}
    (hk : ∀ c s j, p c = true → k (c :: s) j = none) :
    ∀ (s : List UInt8) (i : Nat), greedy p k s i = k (s.dropWhile p) (i + (s.takeWhile p).length)
  | [], i => by simp [greedy]
  | c :: s, i => by
    by_cases hc : p c
    · have hs : i + ((s.takeWhile p).length + 1) = i + 1 + (s.takeWhile p).length := by omega
      simp only [greedy, hc, if_true, greedy_of_stop hk s (i + 1), hk c s i hc, Option.orElse_none,
        List.dropWhile_cons, List.takeWhile_cons, List.length_cons, hs]
    · simp [greedy, hc]

namespace Regex

@[simp] theorem run_capture {n : Nat} {r : Regex} {cap : Caps} {s : List UInt8} {i : Nat}
    {k : Caps → List UInt8 → Nat → Option α} :
    (capture n r).run cap s i k = r.run cap s i fun cap s j => k (cap.set n i j) s j := rfl

@[simp] theorem run_concat {r₁ r₂ : Regex} {cap : Caps} {s : List UInt8} {i : Nat}
    {k : Caps → List UInt8 → Nat → Option α} :
    (concat r₁ r₂).run cap s i k = r₁.run cap s i fun cap s i => r₂.run cap s i k := rfl

@[simp] theorem run_quest {r : Regex} {cap : Caps} {s : List UInt8} {i : Nat}
    {k : Caps → List UInt8 → Nat → Option α} :
    (quest r).run cap s i k = (r.run cap s i k <|> k cap s i) := rfl

@[simp] theorem run_star {cap : Caps} {s : List UInt8} {i : Nat}
    {k : Caps → List UInt8 → Nat → Option α} :
    (star p).run cap s i k = greedy p (k cap) s i := rfl

@[simp] theorem run_plus_nil {cap : Caps} {i : Nat} {k : Caps → List UInt8 → Nat → Option α} :
    (plus p).run cap [] i k = none := rfl

@[simp] theorem run_plus_cons {cap : Caps} {c : UInt8} {s : List UInt8} {i : Nat}
    {k : Caps → List UInt8 → Nat → Option α} :
    (plus p).run cap (c :: s) i k = if p c then greedy p (k cap) s (i + 1) else none := rfl

@[simp] theorem run_literal_nil {c : UInt8} {cap : Caps} {i : Nat}
    {k : Caps → List UInt8 → Nat → Option α} :
    (literal c).run cap [] i k = none := rfl

@[simp] theorem run_literal_cons {c b : UInt8} {cap : Caps} {s : List UInt8} {i : Nat}
    {k : Caps → List UInt8 → Nat → Option α} :
    (literal c).run cap (b :: s) i k = if b = c then k cap s (i + 1) else none := by
  simp [literal, run]

/-- An optional part never makes a match fail. -/
theorem run_quest_isSome {r : Regex} {k : Caps → List UInt8 → Nat → Option α}
    (hk : ∀ cap s j, (k cap s j).isSome) (cap : Caps) (s : List UInt8) (i : Nat) :
    ((quest r).run cap s i k).isSome := by
  cases h : r.run cap s i k <;> simp [h, hk]

/-- `x+` followed by a part that cannot fail takes the longest run of `x`. -/
theorem run_plus_of_total {cap : Caps} {c : UInt8} {s : List UInt8} {i : Nat}
    {k : Caps → List UInt8 → Nat → Option α} (hc : p c = true) (hk : ∀ cap s j, (k cap s j).isSome) :
    (plus p).run cap (c :: s) i k = k cap (s.dropWhile p) (i + 1 + (s.takeWhile p).length) := by
  rw [run_plus_cons, if_pos hc, greedy_of_isSome s (i + 1) (hk _ _ _)]

theorem search_cons_of_none {r : Regex} {c : UInt8} {s : List UInt8} {i : Nat}
    (h : r.matchAt (c :: s) i = none) : r.search (c :: s) i = r.search s (i + 1) := by
  simp [search, h]

end Regex

theorem drop_of_drop_eq_append {t u v : List UInt8} {a b : Nat} (h : t.drop a = u ++ v)
    (hb : b = a + u.length) : t.drop b = v := by
  rw [hb, ← List.drop_drop, h, List.drop_left]

theorem slot_of_drop {t u v : List UInt8} {a b : Nat} (h : t.drop a = u ++ v)
    (hb : b = a + u.length) : slot t (some (a, b)) = u := by
  simp [slot, h, hb]

end Bxmp
