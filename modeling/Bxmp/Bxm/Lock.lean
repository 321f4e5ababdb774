import Bxmp.Bytes
import Bxmp.Validator

namespace Bxmp

/-- `istanbul.Config`. -/
structure IstanbulConfig where
  requestTimeout : UInt64
  blockPeriod : UInt64
  blockPauseTime : UInt64
  proposerPolicy : UInt64
  epoch : UInt64
  deriving DecidableEq, Repr

/-- The consensus engines `CreateConsensusEngine` builds; the Istanbul backend is built on
the node's `config.Istanbul`. -/
inductive Engine
  | clique
  | istanbul (config : IstanbulConfig)
  | ethashFaker
  | ethashTester
  | ethashShared
  | ethash
  deriving DecidableEq, Repr

/-- The type assertion `engine.(consensus.Istanbul)`: the Istanbul backend is the only engine
that implements that interface. -/
def Engine.isIstanbul : Engine → Bool
  | .istanbul _ => true
  | _ => false

/-- The error `Bxmbase` returns when it finds no address. -/
def bxmbaseError : List UInt8 := bytesOf "bxmbase address must be explicitly specified"

/-- What `Bxmbase` returns after reading `bxmbase` under the lock: that address unless it is
zero, then the first account of the first wallet of the account manager. -/
def bxmbaseResult (bxmbase : Address) (wallets : List (List Address)) : Except (List UInt8) Address :=
  if bxmbase ≠ Address.zero then .ok bxmbase
  else match wallets with
    | accounts :: _ =>
      match accounts with
      | a :: _ => .ok a
      | [] => .error bxmbaseError
    | [] => .error bxmbaseError

/-- The address `StartMining` hands to `s.miner.Start` after its `Bxmbase` read `bxmbase`;
none when it returns an error first: `Bxmbase` failed, or the engine is Clique and no wallet
holds the address (`accountManager.Find`). -/
def startMiningBxmbase (engine : Engine) (wallets : List (List Address)) (bxmbase : Address) :
    Option Address :=
  match bxmbaseResult bxmbase wallets with
  | .error _ => none
  | .ok eb => if engine = .clique ∧ !wallets.any (·.contains eb) then none else some eb

theorem startMiningBxmbase_of_ne_zero {engine : Engine} {wallets : List (List Address)}
    {b : Address} (hb : b ≠ Address.zero) :
    startMiningBxmbase engine wallets b =
      if engine = .clique ∧ !wallets.any (·.contains b) then none else some b := by
  simp only [startMiningBxmbase, bxmbaseResult, ne_eq, hb, not_false_eq_true, ↓reduceIte]

/-- `sync.RWMutex` as `Lock`, `Unlock`, `RLock` and `RUnlock` see it: whether a writer holds
it, and how many readers do. -/
structure RWMutex where
  writer : Bool
  readers : Nat
  deriving DecidableEq, Repr

/-- The steps of the `BitMED` methods that touch `s.lock`, `s.bxmbase`, or the miner's copy
of the bxmbase. -/
inductive Op
  | lock
  | unlock
  | rlock
  | runlock
  | readBxmbase
  | writeBxmbase (a : Address)
  | minerSetBxmbase (a : Address)
  | minerStart
  deriving DecidableEq

/-- The methods of `BitMED` that take `s.lock`: `Bxmbase`, `StartMining`, which calls
`Bxmbase` first, and `SetBxmbase`. -/
inductive Call
  | bxmbase
  | startMining
  | setBxmbase (a : Address)
  deriving DecidableEq

/-- The steps of each call, as lines 317-320, 346-369 and 334-343 of `bxm/backend.go` take
them. `StartMining` ends in `go s.miner.Start(eb)`, which puts the miner on `eb` as
`miner.SetBxmbase` does. On an engine that implements `consensus.Istanbul`, `SetBxmbase` logs
and returns right after `Lock`, with no `Unlock`. -/
def Call.ops (istanbul : Bool) : Call → List Op
  | .bxmbase => [.rlock, .readBxmbase, .runlock]
  | .startMining => [.rlock, .readBxmbase, .runlock, .minerStart]
  | .setBxmbase a =>
    if istanbul then [.lock] else [.lock, .writeBxmbase a, .unlock, .minerSetBxmbase a]

/-- A goroutine in one call: how many of its steps it has taken, and the local `bxmbase` once
`Bxmbase` has read it. -/
structure Thread where
  call : Call
  pc : Nat
  read : Option Address

/-- The step a goroutine takes next, none once its call has returned. -/
def Thread.next (istanbul : Bool) (t : Thread) : Option Op := (t.call.ops istanbul)[t.pc]?

/-- Whether the mutex lets the step through: `Lock` waits until no one holds it, `RLock`
until no writer does. -/
def Op.enabled (m : RWMutex) : Op → Bool
  | .lock => !m.writer && m.readers == 0
  | .rlock => !m.writer
  | _ => true

def Op.onLock (m : RWMutex) : Op → RWMutex
  | .lock => { m with writer := true }
  | .unlock => { m with writer := false }
  | .rlock => { m with readers := m.readers + 1 }
  | .runlock => { m with readers := m.readers - 1 }
  | _ => m

def Op.onBxmbase (b : Address) : Op → Address
  | .writeBxmbase a => a
  | _ => b

/-- The miner's bxmbase after the step; `started` is what `StartMining` starts the miner on,
none when it returned an error before. -/
def Op.onMiner (b : Address) (started : Option Address) : Op → Address
  | .minerSetBxmbase a => a
  | .minerStart => started.getD b
  | _ => b

def Op.onRead (b : Address) (r : Option Address) : Op → Option Address
  | .readBxmbase => some b
  | _ => r

/-- A `BitMED` node: its consensus engine, the wallets of its account manager, `s.lock`,
`s.bxmbase`, the bxmbase `s.miner` was last given, and the goroutines calling into it. -/
structure Node where
  engine : Engine
  wallets : List (List Address)
  lock : RWMutex
  bxmbase : Address
  minerBxmbase : Address
  threads : List Thread

/-- Whether the node's engine implements `consensus.Istanbul`. -/
def Node.istanbul (s : Node) : Bool := s.engine.isIstanbul

/-- One step of goroutine `i`, if it has a step left and the mutex lets it through. -/
def Node.step (s : Node) (i : Nat) : Option Node :=
  match s.threads[i]? with
  | none => none
  | some t =>
    match t.next s.istanbul with
    | none => none
    | some op =>
      if op.enabled s.lock then
        some { s with
          lock := op.onLock s.lock
          bxmbase := op.onBxmbase s.bxmbase
          minerBxmbase := op.onMiner s.minerBxmbase (t.read.bind (startMiningBxmbase s.engine s.wallets))
          threads := s.threads.set i { t with pc := t.pc + 1, read := op.onRead s.bxmbase t.read } }
      else none

/-- The node after its goroutines step in the order `sched`, if every step can be taken. -/
def Node.run (s : Node) : List Nat → Option Node
  | [] => some s
  | i :: sched => (s.step i).bind fun s' => s'.run sched

/-- A node with the mutex free and one goroutine at the start of each call. -/
def Node.init (engine : Engine) (wallets : List (List Address)) (bxmbase miner : Address)
    (calls : List Call) : Node :=
  ⟨engine, wallets, ⟨false, 0⟩, bxmbase, miner, calls.map fun c => ⟨c, 0, none⟩⟩

theorem Node.step_eq {s s' : Node} {i : Nat} (h : s.step i = some s') :
    ∃ t op, s.threads[i]? = some t ∧ t.next s.istanbul = some op ∧ op.enabled s.lock ∧
      s' = { s with
          lock := op.onLock s.lock
          bxmbase := op.onBxmbase s.bxmbase
          minerBxmbase := op.onMiner s.minerBxmbase (t.read.bind (startMiningBxmbase s.engine s.wallets))
          threads := s.threads.set i { t with pc := t.pc + 1, read := op.onRead s.bxmbase t.read } } := by
  unfold Node.step at h
  split at h
  · cases h
  · next t ht =>
    split at h
    · cases h
    · next op hop =>
      split_ifs at h with he
      exact ⟨t, op, ht, hop, he, (Option.some.inj h).symm⟩

/-- The step a goroutine takes next, by its call and how far it is. -/
theorem Thread.next_eq_some {istanbul : Bool} {t : Thread} {op : Op} (h : t.next istanbul = some op) :
    (t.call = .bxmbase ∨ t.call = .startMining) ∧
      (t.pc = 0 ∧ op = .rlock ∨ t.pc = 1 ∧ op = .readBxmbase ∨ t.pc = 2 ∧ op = .runlock) ∨
    t.call = .startMining ∧ t.pc = 3 ∧ op = .minerStart ∨
    ∃ a, t.call = .setBxmbase a ∧ (t.pc = 0 ∧ op = .lock ∨ istanbul = false ∧
      (t.pc = 1 ∧ op = .writeBxmbase a ∨ t.pc = 2 ∧ op = .unlock ∨ t.pc = 3 ∧ op = .minerSetBxmbase a)) := by
  obtain ⟨c, pc, r⟩ := t
  cases c <;> cases istanbul <;> rcases pc with _ | _ | _ | _ | pc <;>
    simp only [Thread.next, Call.ops, Bool.false_eq_true, ↓reduceIte, List.getElem?_cons_zero,
      List.getElem?_cons_succ, List.getElem?_nil, Option.some.injEq, reduceCtorEq] at h <;>
    subst h <;> simp

theorem Thread.next_eq_none {istanbul : Bool} {t : Thread} :
    t.next istanbul = none ↔ (t.call.ops istanbul).length ≤ t.pc :=
  List.getElem?_eq_none_iff

/-- Whether the goroutine is between `RLock` and `RUnlock`. -/
def Thread.holdsRead (t : Thread) : Bool :=
  match t.call with
  | .setBxmbase _ => false
  | _ => decide (t.pc = 1 ∨ t.pc = 2)

/-- Whether the goroutine has taken the write lock and not given it back: from `Lock` on, and
on an Istanbul engine for good. -/
def Thread.holdsWrite (istanbul : Bool) (t : Thread) : Bool :=
  match t.call with
  | .setBxmbase _ => decide (0 < t.pc ∧ (istanbul = true ∨ t.pc ≤ 2))
  | _ => false

/-- Only `RLock`, `RUnlock`, `Lock` and `Unlock` take or give back a hold on the mutex. -/
theorem Thread.holds_step {istanbul : Bool} {t : Thread} {op : Op} (h : t.next istanbul = some op)
    (r : Option Address) :
    (if Thread.holdsRead { t with pc := t.pc + 1, read := r } then 1 else 0) +
        (if op = .runlock then 1 else 0) =
      (if t.holdsRead then 1 else 0) + (if op = .rlock then 1 else 0) ∧
    (if Thread.holdsWrite istanbul { t with pc := t.pc + 1, read := r } then 1 else 0) +
        (if op = .unlock then 1 else 0) =
      (if t.holdsWrite istanbul then 1 else 0) + (if op = .lock then 1 else 0) := by
  rcases Thread.next_eq_some h with ⟨hc | hc, ⟨hpc, rfl⟩ | ⟨hpc, rfl⟩ | ⟨hpc, rfl⟩⟩ |
    ⟨hc, hpc, rfl⟩ | ⟨a, hc, ⟨hpc, rfl⟩ | ⟨rfl, ⟨hpc, rfl⟩ | ⟨hpc, rfl⟩ | ⟨hpc, rfl⟩⟩⟩ <;>
    simp [Thread.holdsRead, Thread.holdsWrite, hc, hpc]

/-- The invariant of `s.lock`: its readers are the goroutines between `RLock` and `RUnlock`,
its writer the one goroutine that holds the write lock, and never both. -/
structure Node.Inv (s : Node) : Prop where
  readers : s.lock.readers = s.threads.countP Thread.holdsRead
  writers : (if s.lock.writer then 1 else 0) = s.threads.countP (Thread.holdsWrite s.istanbul)
  exclusive : s.lock.writer = true → s.lock.readers = 0

theorem Node.init_inv (engine : Engine) (wallets : List (List Address)) (bxmbase miner : Address)
    (calls : List Call) : (Node.init engine wallets bxmbase miner calls).Inv where
  readers := by
    simp only [Node.init, List.countP_map]
    refine (List.countP_eq_zero.mpr fun c _ => ?_).symm
    cases c <;> simp [Thread.holdsRead]
  writers := by
    simp only [Node.init, List.countP_map, if_false]
    refine (List.countP_eq_zero.mpr fun c _ => ?_).symm
    cases c <;> simp [Thread.holdsWrite]
  exclusive := fun h => by simp [Node.init] at h

theorem Op.onLock_readers (m : RWMutex) (op : Op) (h : op = .runlock → 0 < m.readers) :
    (op.onLock m).readers + (if op = .runlock then 1 else 0) =
      m.readers + (if op = .rlock then 1 else 0) := by
  cases op <;> simp [Op.onLock] at h ⊢
  omega

theorem Op.onLock_writers (m : RWMutex) (op : Op) (hl : op = .lock → m.writer = false)
    (hu : op = .unlock → m.writer = true) :
    (if (op.onLock m).writer then 1 else 0) + (if op = .unlock then 1 else 0) =
      (if m.writer then 1 else 0) + (if op = .lock then 1 else 0) := by
  cases op <;> simp [Op.onLock] at hl hu ⊢ <;> simp [hl, hu]

/-- A step the mutex lets through never leaves a writer beside a reader. -/
theorem Op.onLock_exclusive (m : RWMutex) (op : Op) (he : op.enabled m)
    (hx : m.writer = true → m.readers = 0) (hr : op = .runlock → 0 < m.readers) :
    (op.onLock m).writer = true → (op.onLock m).readers = 0 := by
  cases op <;> simp_all [Op.onLock, Op.enabled]

theorem Node.step_inv {s s' : Node} {i : Nat} (hs : s.Inv) (h : s.step i = some s') : s'.Inv := by
  obtain ⟨t, op, ht, hop, he, rfl⟩ := Node.step_eq h
  obtain ⟨hi, hti⟩ := List.getElem?_eq_some_iff.mp ht
  obtain ⟨hr, hw⟩ := Thread.holds_step hop (op.onRead s.bxmbase t.read)
  have cr := List.boole_getElem_le_countP Thread.holdsRead s.threads i hi
  have cw := List.boole_getElem_le_countP (Thread.holdsWrite s.istanbul) s.threads i hi
  rw [hti] at cr cw
  obtain ⟨hR, hW, hX⟩ := hs
  -- `RUnlock` and `Unlock` are taken only by a goroutine holding the lock they give back.
  have hpos : op = .runlock → 0 < s.lock.readers := by
    rintro rfl
    simp only [if_true, reduceCtorEq, if_false] at hr
    omega
  have hul : op = .unlock → s.lock.writer = true := by
    rintro rfl
    simp only [reduceCtorEq, if_false, if_true] at hw
    split_ifs at hW with hx
    · exact hx
    · omega
  have hlk : op = .lock → s.lock.writer = false := by
    rintro rfl
    simp only [Op.enabled, Bool.and_eq_true, Bool.not_eq_true', beq_iff_eq] at he
    exact he.1
  have hrl := Op.onLock_readers s.lock op hpos
  have hwl := Op.onLock_writers s.lock op hlk hul
  refine ⟨?_, ?_, Op.onLock_exclusive s.lock op he hX hpos⟩
  · dsimp only
    rw [List.countP_set _ _ _ _ hi, hti]
    omega
  · dsimp only [Node.istanbul] at hw cw hW ⊢
    rw [List.countP_set _ _ _ _ hi, hti]
    omega

/-- What every step keeps, every run keeps. -/
theorem Node.run_preserves {P : Node → Prop} (hstep : ∀ {s s' i}, P s → s.step i = some s' → P s')
    {s s' : Node} {sched : List Nat} (hs : P s) (h : s.run sched = some s') : P s' := by
  induction sched generalizing s with
  | nil => cases h; exact hs
  | cons i sched ih =>
    obtain ⟨s₁, h₁, h₂⟩ := Option.bind_eq_some.mp h
    exact ih (hstep hs h₁) h₂

theorem Node.run_inv {s s' : Node} {sched : List Nat} (hs : s.Inv) (h : s.run sched = some s') :
    s'.Inv :=
  Node.run_preserves Node.step_inv hs h

theorem Node.step_engine {s s' : Node} {i : Nat} (h : s.step i = some s') :
    s'.engine = s.engine := by
  obtain ⟨t, op, -, -, -, rfl⟩ := Node.step_eq h
  rfl

theorem Node.run_engine {s s' : Node} {sched : List Nat} (h : s.run sched = some s') :
    s'.engine = s.engine :=
  Node.run_preserves (P := fun s' => s'.engine = s.engine)
    (fun hs h => (Node.step_engine h).trans hs) rfl h

theorem Node.step_istanbul {s s' : Node} {i : Nat} (h : s.step i = some s') :
    s'.istanbul = s.istanbul :=
  congrArg Engine.isIstanbul (Node.step_engine h)

theorem Node.run_istanbul {s s' : Node} {sched : List Nat} (h : s.run sched = some s') :
    s'.istanbul = s.istanbul :=
  congrArg Engine.isIstanbul (Node.run_engine h)

theorem map_set_of_getElem? {α β : Type} {f : α → β} {l : List α} {i : Nat} {a b : α}
    (h : l[i]? = some b) (hf : f a = f b) : (l.set i a).map f = l.map f := by
  refine List.ext_getElem? fun j => ?_
  rw [List.getElem?_map, List.getElem?_map, List.getElem?_set]
  split_ifs with hij hl
  · subst hij; simp [h, hf]
  · exact absurd (List.getElem?_eq_some_iff.mp h).1 hl
  · rfl

/-- No step starts or ends a call: the goroutines keep their calls. -/
theorem Node.step_calls {s s' : Node} {i : Nat} (h : s.step i = some s') :
    s'.threads.map Thread.call = s.threads.map Thread.call := by
  obtain ⟨t, op, ht, -, -, rfl⟩ := Node.step_eq h
  exact map_set_of_getElem? ht rfl

theorem Node.run_calls {s s' : Node} {sched : List Nat} (h : s.run sched = some s') :
    s'.threads.map Thread.call = s.threads.map Thread.call :=
  Node.run_preserves (P := fun s' => s'.threads.map Thread.call = s.threads.map Thread.call)
    (fun hs h => (Node.step_calls h).trans hs) rfl h

theorem Node.init_calls (engine : Engine) (wallets : List (List Address)) (bxmbase miner : Address)
    (calls : List Call) : (Node.init engine wallets bxmbase miner calls).threads.map Thread.call = calls := by
  rw [Node.init, List.map_map]
  exact List.map_id calls

theorem Node.step_of_enabled {s : Node} {i : Nat} {t : Thread} {op : Op} (ht : s.threads[i]? = some t)
    (hop : t.next s.istanbul = some op) (he : op.enabled s.lock) : ∃ s', s.step i = some s' := by
  simp [Node.step, ht, hop, he]

/-- A holder of the mutex can always move, unless it is a returned Istanbul `SetBxmbase`. -/
theorem Thread.next_of_holds (istanbul : Bool) {t : Thread}
    (h : t.holdsRead ∨ (istanbul = false ∧ t.holdsWrite false)) :
    ∃ op, t.next istanbul = some op ∧ ∀ m, op.enabled m := by
  obtain ⟨c, pc, r⟩ := t
  rcases h with h | ⟨rfl, h⟩
  · -- a reader is at its read or at its `RUnlock`
    cases c <;> simp only [Thread.holdsRead, decide_eq_true_eq, Bool.false_eq_true] at h <;>
      rcases h with rfl | rfl <;> exact ⟨_, rfl, fun _ => rfl⟩
  · -- a writer is at its write or at its `Unlock`
    cases c <;> simp only [Thread.holdsWrite, decide_eq_true_eq, Bool.false_eq_true, false_or] at h
    rcases (by omega : pc = 1 ∨ pc = 2) with rfl | rfl <;> exact ⟨_, rfl, fun _ => rfl⟩

theorem Thread.not_holds_of_next_none {istanbul : Bool} {t : Thread} (h : t.next istanbul = none) :
    t.holdsRead = false ∧ (istanbul = false → t.holdsWrite false = false) := by
  have hl := Thread.next_eq_none.mp h
  obtain ⟨c, pc, r⟩ := t
  cases c <;> cases istanbul <;> simp [Call.ops, Thread.holdsRead, Thread.holdsWrite] at hl ⊢ <;> omega

theorem Node.Inv.holder {s : Node} (hs : s.Inv) (h : s.lock.writer = true ∨ 0 < s.lock.readers) :
    ∃ t ∈ s.threads, t.holdsRead ∨ t.holdsWrite s.istanbul := by
  rcases h with hw | hr
  · have hp : 0 < s.threads.countP (Thread.holdsWrite s.istanbul) := by rw [← hs.writers, hw]; decide
    obtain ⟨t, ht, hh⟩ := List.countP_pos_iff.mp hp
    exact ⟨t, ht, Or.inr hh⟩
  · obtain ⟨t, ht, hh⟩ := List.countP_pos_iff.mp (hs.readers ▸ hr)
    exact ⟨t, ht, Or.inl hh⟩

theorem Node.Inv.writer_of_holds {s : Node} (hs : s.Inv) {t : Thread} (ht : t ∈ s.threads)
    (hh : t.holdsWrite s.istanbul) : s.lock.writer = true := by
  have hp : 0 < s.threads.countP (Thread.holdsWrite s.istanbul) := List.countP_pos_iff.mpr ⟨t, ht, hh⟩
  rw [← hs.writers] at hp
  by_contra hw
  simp [hw] at hp

theorem Node.Inv.not_writer_of_holdsRead {s : Node} (hs : s.Inv) {t : Thread} (ht : t ∈ s.threads)
    (hh : t.holdsRead) : s.lock.writer = false := by
  have hp : 0 < s.threads.countP Thread.holdsRead := List.countP_pos_iff.mpr ⟨t, ht, hh⟩
  rw [← hs.readers] at hp
  by_contra hw
  rw [hs.exclusive (Bool.not_eq_false _ ▸ hw)] at hp
  exact lt_irrefl 0 hp

theorem Op.blocked {m : RWMutex} {op : Op} (h : op.enabled m = false) :
    m.writer = true ∨ 0 < m.readers := by
  cases hw : m.writer <;> cases op <;> simp_all [Op.enabled]
  omega

/-- Without Istanbul, a blocked goroutine has a holder of the mutex that can move. -/
theorem Node.progress {s : Node} (hs : s.Inv) (hi : s.istanbul = false) {t : Thread}
    (ht : t ∈ s.threads) (hn : t.next false ≠ none) : ∃ i s', s.step i = some s' := by
  obtain ⟨op, hop⟩ := Option.ne_none_iff_exists'.mp hn
  cases he : op.enabled s.lock
  · obtain ⟨t₂, ht₂, hh⟩ := hs.holder (Op.blocked he)
    obtain ⟨op₂, hop₂, he₂⟩ := Thread.next_of_holds false (hh.imp_right fun hw => ⟨rfl, hi ▸ hw⟩)
    obtain ⟨i, hti⟩ := List.mem_iff_getElem?.mp ht₂
    exact ⟨i, Node.step_of_enabled hti (hi ▸ hop₂) (he₂ _)⟩
  · obtain ⟨i, hti⟩ := List.mem_iff_getElem?.mp ht
    exact ⟨i, Node.step_of_enabled hti (hi ▸ hop) he⟩

/-- Without Istanbul, once every call has returned the mutex is free again. -/
theorem Node.lock_free {s : Node} (hs : s.Inv) (hi : s.istanbul = false)
    (hd : ∀ t ∈ s.threads, t.next false = none) : s.lock.writer = false ∧ s.lock.readers = 0 := by
  have hr : s.threads.countP Thread.holdsRead = 0 :=
    List.countP_eq_zero.mpr fun t ht => by simp [(Thread.not_holds_of_next_none (hd t ht)).1]
  have hw : s.threads.countP (Thread.holdsWrite s.istanbul) = 0 :=
    List.countP_eq_zero.mpr fun t ht => by simp [hi, (Thread.not_holds_of_next_none (hd t ht)).2 rfl]
  rw [← hs.writers] at hw
  exact ⟨by simpa using hw, hs.readers.trans hr⟩

/-- Under Istanbul, a goroutine outside the read lock can only lock or start the miner. -/
theorem Thread.next_istanbul {t : Thread} {op : Op} (h : t.next true = some op)
    (hr : t.holdsRead = false) : op = .lock ∨ op = .rlock ∨ t.pc = 3 ∧ op = .minerStart := by
  rcases Thread.next_eq_some h with ⟨hc, ⟨-, rfl⟩ | ⟨hpc, -⟩ | ⟨hpc, -⟩⟩ | ⟨-, hpc, rfl⟩ |
    ⟨a, -, ⟨-, rfl⟩ | ⟨h, -⟩⟩
  · exact .inr (.inl rfl)
  -- at its read and at its `RUnlock` the goroutine holds the read lock
  · rcases hc with hc | hc <;> simp [Thread.holdsRead, hc, hpc] at hr
  · rcases hc with hc | hc <;> simp [Thread.holdsRead, hc, hpc] at hr
  · exact .inr (.inr ⟨hpc, rfl⟩)
  · exact .inl rfl
  · cases h

/-- Under Istanbul a held write lock lets only a `StartMining` past `RUnlock` move. -/
theorem Node.step_of_writer {s s' : Node} {i : Nat} (hs : s.Inv) (hi : s.istanbul = true)
    (hw : s.lock.writer = true) (h : s.step i = some s') :
    s'.lock = s.lock ∧ s'.bxmbase = s.bxmbase ∧
      ∀ (j : Nat) (u : Thread), s.threads[j]? = some u → u.pc = 0 → s'.threads[j]? = some u := by
  obtain ⟨t, op, ht, hop, he, rfl⟩ := Node.step_eq h
  have hr : t.holdsRead = false := by
    by_contra hr
    have := hs.not_writer_of_holdsRead (List.mem_iff_getElem?.mpr ⟨i, ht⟩) (by simpa using hr)
    simp [hw] at this
  rcases Thread.next_istanbul (hi ▸ hop) hr with rfl | rfl | ⟨hpc, rfl⟩
  · simp [Op.enabled, hw] at he
  · simp [Op.enabled, hw] at he
  · refine ⟨rfl, rfl, fun j u hu h0 => ?_⟩
    have hij : i ≠ j := by
      rintro rfl
      rw [ht] at hu
      cases hu
      omega
    exact (List.getElem?_set_ne hij).trans hu

/-- Under Istanbul a held write lock is held for good. -/
theorem Node.run_of_writer {s s' : Node} {sched : List Nat} (hs : s.Inv) (hi : s.istanbul = true)
    (hw : s.lock.writer = true) (h : s.run sched = some s') :
    s'.lock = s.lock ∧ s'.bxmbase = s.bxmbase ∧
      ∀ (j : Nat) (u : Thread), s.threads[j]? = some u → u.pc = 0 → s'.threads[j]? = some u := by
  have := Node.run_preserves (P := fun x => x.Inv ∧ x.istanbul = true ∧ x.lock = s.lock ∧
      x.bxmbase = s.bxmbase ∧ ∀ (j : Nat) (u : Thread), s.threads[j]? = some u → u.pc = 0 → x.threads[j]? = some u)
    (fun ⟨hx, hxi, hxl, hxb, hxt⟩ h =>
      have hf := Node.step_of_writer hx hxi (hxl ▸ hw) h
      ⟨Node.step_inv hx h, (Node.step_istanbul h).trans hxi, hf.1.trans hxl, hf.2.1.trans hxb,
        fun j u hu h0 => hf.2.2 j u (hxt j u hu h0) h0⟩)
    ⟨hs, hi, rfl, rfl, fun _ _ hu _ => hu⟩ h
  exact this.2.2

/-- A returned Istanbul `SetBxmbase` still holds the write lock. -/
theorem Node.writer_of_returned {s : Node} (hs : s.Inv) (hi : s.istanbul = true) {t : Thread}
    (ht : t ∈ s.threads) {a : Address} (ha : t.call = .setBxmbase a) (hr : t.next true = none) :
    s.lock.writer = true := by
  have hpc := Thread.next_eq_none.mp hr
  simp only [ha, Call.ops, ↓reduceIte, List.length_singleton] at hpc
  exact hs.writer_of_holds ht (by simp [Thread.holdsWrite, ha, hi]; omega)

/-- The steps a goroutine has left. -/
def Thread.remaining (istanbul : Bool) (t : Thread) : Nat := (t.call.ops istanbul).length - t.pc

def Node.remaining (s : Node) : Nat := (s.threads.map (Thread.remaining s.istanbul)).sum

theorem sum_set_add {l : List Nat} {i : Nat} (h : i < l.length) (a : Nat) :
    (l.set i a).sum + l[i] = l.sum + a := by
  induction l generalizing i with
  | nil => simp at h
  | cons x l ih =>
    cases i with
    | zero => simp only [List.set_cons_zero, List.sum_cons, List.getElem_cons_zero]; omega
    | succ i =>
      have := ih (Nat.lt_of_succ_lt_succ h)
      simp only [List.set_cons_succ, List.sum_cons, List.getElem_cons_succ]
      omega

/-- Every step takes one step off what is left. -/
theorem Node.remaining_step {s s' : Node} {i : Nat} (h : s.step i = some s') :
    s'.remaining + 1 = s.remaining := by
  obtain ⟨t, op, ht, hop, -, rfl⟩ := Node.step_eq h
  obtain ⟨hi, hti⟩ := List.getElem?_eq_some_iff.mp ht
  have hpc := (List.getElem?_eq_some_iff.mp hop).1
  have hs := sum_set_add (l := s.threads.map (Thread.remaining s.istanbul))
    (by simpa using hi) ({ t with pc := t.pc + 1, read := op.onRead s.bxmbase t.read }.remaining s.istanbul)
  simp only [List.getElem_map, hti, ← List.map_set] at hs
  simp only [Node.remaining, Thread.remaining, Node.istanbul] at hs hpc ⊢
  omega

theorem Node.remaining_run {s s' : Node} {sched : List Nat} (h : s.run sched = some s') :
    sched.length + s'.remaining = s.remaining := by
  induction sched generalizing s with
  | nil => cases h; simp
  | cons i sched ih =>
    obtain ⟨s₁, h₁, h₂⟩ := Option.bind_eq_some.mp h
    have := ih h₂
    have := Node.remaining_step h₁
    simp only [List.length_cons]
    omega

theorem Call.length_ops_le (istanbul : Bool) (c : Call) : (c.ops istanbul).length ≤ 4 := by
  cases c <;> cases istanbul <;> simp [Call.ops]

theorem Node.remaining_init (engine : Engine) (wallets : List (List Address)) (bxmbase miner : Address)
    (calls : List Call) : (Node.init engine wallets bxmbase miner calls).remaining ≤ 4 * calls.length := by
  have := List.sum_le_card_nsmul ((calls.map fun c => ⟨c, 0, none⟩ : List Thread).map
    (Thread.remaining engine.isIstanbul)) 4
    (by simpa [Thread.remaining] using fun c _ => c.length_ops_le engine.isIstanbul)
  simpa [Node.remaining, Node.istanbul, Node.init, mul_comm] using this

theorem two_le_countP {α : Type} {p : α → Bool} {l : List α} {i j : Nat} {x y : α} (hij : i ≠ j)
    (hx : l[i]? = some x) (hy : l[j]? = some y) (hpx : p x) (hpy : p y) : 2 ≤ l.countP p := by
  induction l generalizing i j with
  | nil => simp at hx
  | cons z l ih =>
    rcases i with _ | i <;> rcases j with _ | j <;>
      simp only [List.getElem?_cons_zero, List.getElem?_cons_succ, Option.some.injEq] at hx hy
    · contradiction
    · subst hx
      have := List.countP_pos_iff.mpr ⟨y, List.mem_iff_getElem?.mpr ⟨_, hy⟩, hpy⟩
      simp only [List.countP_cons, hpx, ↓reduceIte]; omega
    · subst hy
      have := List.countP_pos_iff.mpr ⟨x, List.mem_iff_getElem?.mpr ⟨_, hx⟩, hpx⟩
      simp only [List.countP_cons, hpy, ↓reduceIte]; omega
    · have := ih (by omega) hx hy
      simp only [List.countP_cons]; omega

theorem Thread.holdsWrite_of_next {istanbul : Bool} {t : Thread} {a : Address}
    (h : t.next istanbul = some (.writeBxmbase a)) : t.holdsWrite istanbul := by
  rcases Thread.next_eq_some h with ⟨-, ⟨-, h⟩ | ⟨-, h⟩ | ⟨-, h⟩⟩ | ⟨-, -, h⟩ |
    ⟨b, hc, ⟨-, h⟩ | ⟨rfl, ⟨hpc, -⟩ | ⟨-, h⟩ | ⟨-, h⟩⟩⟩
  all_goals first | cases h | simp [Thread.holdsWrite, hc, hpc]

theorem Thread.holdsRead_of_next {istanbul : Bool} {t : Thread}
    (h : t.next istanbul = some .readBxmbase) : t.holdsRead := by
  rcases Thread.next_eq_some h with ⟨hc | hc, ⟨-, h⟩ | ⟨hpc, -⟩ | ⟨-, h⟩⟩ | ⟨-, -, h⟩ |
    ⟨b, hc, ⟨-, h⟩ | ⟨-, ⟨-, h⟩ | ⟨-, h⟩ | ⟨-, h⟩⟩⟩
  all_goals first | cases h | simp [Thread.holdsRead, hc, hpc]

theorem Thread.call_of_next_minerStart {istanbul : Bool} {t : Thread}
    (h : t.next istanbul = some .minerStart) : t.call = .startMining := by
  rcases Thread.next_eq_some h with ⟨-, ⟨-, h⟩ | ⟨-, h⟩ | ⟨-, h⟩⟩ | ⟨hc, -, -⟩ |
    ⟨b, -, ⟨-, h⟩ | ⟨-, ⟨-, h⟩ | ⟨-, h⟩ | ⟨-, h⟩⟩⟩
  all_goals first | cases h | exact hc

/-- Under Istanbul no step writes `s.bxmbase`, and only `StartMining` moves the miner. -/
theorem Call.ops_istanbul_frame {c : Call} {op : Op} (h : op ∈ c.ops true) :
    (∀ b, op.onBxmbase b = b) ∧ (op = .minerStart ∨ ∀ m r, op.onMiner m r = m) := by
  cases c <;> simp only [Call.ops, ↓reduceIte, List.mem_cons, List.mem_singleton,
    List.not_mem_nil, or_false] at h <;> rcases h with rfl | rfl | rfl | rfl <;>
    simp [Op.onBxmbase, Op.onMiner]

/-- What an Istanbul node keeps: its bxmbase, the reads of it, and the miner's, which only a
`StartMining` moves, to what it read. -/
structure Node.Frozen (b m : Address) (s : Node) : Prop where
  bxmbase : s.bxmbase = b
  miner : s.minerBxmbase = m ∨
    some s.minerBxmbase = startMiningBxmbase s.engine s.wallets b ∧
      Call.startMining ∈ s.threads.map Thread.call
  reads : ∀ t ∈ s.threads, t.read = none ∨ t.read = some b

theorem Node.step_frozen {s s' : Node} {i : Nat} {b m : Address} (hi : s.istanbul = true)
    (hs : s.Frozen b m) (h : s.step i = some s') : s'.Frozen b m := by
  have hc := Node.step_calls h
  obtain ⟨t, op, ht, hop, -, rfl⟩ := Node.step_eq h
  have hf := Call.ops_istanbul_frame (List.mem_iff_getElem?.mpr ⟨_, hi ▸ hop⟩)
  have htr := hs.reads t (List.mem_iff_getElem?.mpr ⟨_, ht⟩)
  refine ⟨(hf.1 _).trans hs.bxmbase, ?_, fun t' ht' => ?_⟩
  · dsimp only at hc ⊢
    rw [hc]
    rcases hf.2 with rfl | hm
    · have hsm : Call.startMining ∈ s.threads.map Thread.call :=
        List.mem_map.mpr ⟨t, List.mem_iff_getElem?.mpr ⟨_, ht⟩, Thread.call_of_next_minerStart hop⟩
      rcases htr with hr | hr <;> rw [hr]
      · exact hs.miner
      · cases hx : startMiningBxmbase s.engine s.wallets b with
        | none => simpa [Op.onMiner, hx] using hs.miner
        | some x => exact .inr ⟨by simp [Op.onMiner, hx], hsm⟩
    · rw [hm]
      exact hs.miner
  · rcases List.mem_or_eq_of_mem_set ht' with ht' | rfl
    · exact hs.reads t' ht'
    · cases op <;> simp only [Op.onRead, hs.bxmbase, or_true] <;> exact htr

theorem Node.run_frozen {s s' : Node} {sched : List Nat} {b m : Address} (hi : s.istanbul = true)
    (hs : s.Frozen b m) (h : s.run sched = some s') : s'.Frozen b m :=
  (Node.run_preserves (P := fun s => s.istanbul = true ∧ s.Frozen b m)
    (fun hs h => ⟨(Node.step_istanbul h).trans hs.1, Node.step_frozen hs.1 hs.2 h⟩) ⟨hi, hs⟩ h).2

theorem Node.init_frozen (engine : Engine) (wallets : List (List Address)) (b m : Address)
    (calls : List Call) : (Node.init engine wallets b m calls).Frozen b m :=
  ⟨rfl, .inl rfl, fun t ht => by
    obtain ⟨c, -, rfl⟩ := List.mem_map.mp ht
    exact Or.inl rfl⟩

/-- What a call does run on its own, on the node's and the miner's bxmbase, without Istanbul:
`SetBxmbase(a)` sets both to `a`, `StartMining` starts the miner on what `Bxmbase` gives. -/
def Call.apply (engine : Engine) (wallets : List (List Address)) :
    Call → Address × Address → Address × Address
  | .bxmbase, st => st
  | .startMining, (b, m) => (b, (startMiningBxmbase engine wallets b).getD m)
  | .setBxmbase a, _ => (a, a)

/-- Off Clique a `StartMining` that reads a set address starts the miner on it. -/
theorem startMiningBxmbase_of_isIstanbul {engine : Engine} {wallets : List (List Address)}
    {b : Address} (he : engine.isIstanbul = true) (hb : b ≠ Address.zero) :
    startMiningBxmbase engine wallets b = some b := by
  rw [startMiningBxmbase_of_ne_zero hb, if_neg]
  rintro ⟨rfl, -⟩
  cases he

end Bxmp
