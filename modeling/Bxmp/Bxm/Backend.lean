import Bxmp.Bytes
import Bxmp.Bxm.Lock

namespace Bxmp

/-- The fields of `bxm.Config` that `New` and `CreateConsensusEngine` read. -/
structure Config where
  bxmbase : Address
  istanbul : IstanbulConfig
  powFake : Bool
  powTest : Bool
  powShared : Bool

/-- The Istanbul section of `params.ChainConfig`, with the fields `CreateConsensusEngine`
reads. -/
structure ChainIstanbulConfig where
  epoch : UInt64
  proposerPolicy : UInt64
  deriving DecidableEq, Repr

/-- The sections of `params.ChainConfig` that choose the consensus engine. -/
structure ChainConfig where
  clique : Bool
  istanbul : Option ChainIstanbulConfig
  deriving DecidableEq, Repr

/-- `CreateConsensusEngine`, with the node's config as the call leaves it: the Istanbul branch
writes the chain's epoch (when it is not zero) and proposer policy into `config.Istanbul`. -/
def createConsensusEngine (config : Config) (chainConfig : ChainConfig) : Engine × Config :=
  if chainConfig.clique then (.clique, config)
  else match chainConfig.istanbul with
    | some ci =>
      let ic := { config.istanbul with
        epoch := if ci.epoch ≠ 0 then ci.epoch else config.istanbul.epoch
        proposerPolicy := ci.proposerPolicy }
      (.istanbul ic, { config with istanbul := ic })
    | none =>
      (if config.powFake then .ethashFaker
        else if config.powTest then .ethashTester
        else if config.powShared then .ethashShared
        else .ethash, config)

theorem createConsensusEngine_isIstanbul (config : Config) (chainConfig : ChainConfig) :
    (createConsensusEngine config chainConfig).1.isIstanbul =
      (!chainConfig.clique && chainConfig.istanbul.isSome) := by
  rcases chainConfig with ⟨_ | _, _ | ci⟩
  · dsimp only [createConsensusEngine]
    split_ifs <;> rfl
  all_goals rfl

/-- The `bxmbase` field `New` gives the node: `config.Bxmbase`, forced to the address of the
node key when the chain config has an Istanbul section. -/
def newBxmbase (config : Config) (chainConfig : ChainConfig) (nodeKey : Address) : Address :=
  if chainConfig.istanbul.isSome then nodeKey else config.bxmbase

/-- The node `New` builds, with goroutines about to make the given calls on it; `miner` is the
bxmbase the miner starts with, `wallets` those of the account manager. -/
def newBitMED (config : Config) (chainConfig : ChainConfig) (nodeKey miner : Address)
    (wallets : List (List Address)) (calls : List Call) : Node :=
  Node.init (createConsensusEngine config chainConfig).1 wallets
    (newBxmbase config chainConfig nodeKey) miner calls

section System

variable {config : Config} {chainConfig : ChainConfig} {nodeKey miner : Address}
  {wallets : List (List Address)} {calls : List Call} {sched : List Nat} {s : Node}

theorem newBitMED_run (h : (newBitMED config chainConfig nodeKey miner wallets calls).run sched = some s) :
    s.Inv ∧ s.istanbul = (!chainConfig.clique && chainConfig.istanbul.isSome) :=
  ⟨Node.run_inv (Node.init_inv _ _ _ _ _) h,
    (Node.run_istanbul h).trans (createConsensusEngine_isIstanbul config chainConfig)⟩

/-- No interleaving has a write of `s.bxmbase` beside another read or write of it. -/
theorem bitMED_race_free (h : (newBitMED config chainConfig nodeKey miner wallets calls).run sched = some s)
    {i j : Nat} (hij : i ≠ j) {t u : Thread} (ht : s.threads[i]? = some t)
    (hu : s.threads[j]? = some u) {a : Address} (hw : t.next s.istanbul = some (.writeBxmbase a)) :
    u.next s.istanbul ≠ some .readBxmbase ∧ ∀ b, u.next s.istanbul ≠ some (.writeBxmbase b) := by
  have hs := (newBitMED_run h).1
  have hW := hs.writers
  have hwr : s.lock.writer = true :=
    hs.writer_of_holds (List.mem_iff_getElem?.mpr ⟨_, ht⟩) (Thread.holdsWrite_of_next hw)
  refine ⟨fun hr => ?_, fun b hb => ?_⟩
  · have hR := List.countP_pos_iff.mpr ⟨u, List.mem_iff_getElem?.mpr ⟨_, hu⟩, Thread.holdsRead_of_next hr⟩
    rw [← hs.readers, hs.exclusive hwr] at hR
    exact absurd hR (lt_irrefl 0)
  · have := two_le_countP hij ht hu (Thread.holdsWrite_of_next hw) (Thread.holdsWrite_of_next hb)
    rw [hwr, if_pos rfl] at hW
    omega

theorem bitMED_race_free_setBxmbase_bxmbase :
    ∃ s, (newBitMED ⟨Address.zero, ⟨10000, 1, 2, 0, 30000⟩, false, false, false⟩ ⟨false, none⟩
        Address.zero Address.zero [] [.setBxmbase Address.zero, .bxmbase]).run [0] = some s ∧
      (0 : Nat) ≠ 1 ∧ s.threads[0]? = some ⟨.setBxmbase Address.zero, 1, none⟩ ∧
      s.threads[1]? = some ⟨.bxmbase, 0, none⟩ ∧
      Thread.next s.istanbul ⟨.setBxmbase Address.zero, 1, none⟩ = some (.writeBxmbase Address.zero) ∧
      Thread.next s.istanbul ⟨.bxmbase, 0, none⟩ ≠ some .readBxmbase ∧
      ∀ b, Thread.next s.istanbul ⟨.bxmbase, 0, none⟩ ≠ some (.writeBxmbase b) :=
  ⟨_, rfl, by decide, rfl, rfl, rfl,
    @bitMED_race_free ⟨Address.zero, ⟨10000, 1, 2, 0, 30000⟩, false, false, false⟩ ⟨false, none⟩
      Address.zero Address.zero [] [.setBxmbase Address.zero, .bxmbase] [0] _ rfl 0 1 (by decide) _ _
      rfl rfl _ rfl⟩

theorem isIstanbul_false (hne : chainConfig.clique = true ∨ chainConfig.istanbul = none) :
    (!chainConfig.clique && chainConfig.istanbul.isSome) = false := by
  rcases hne with hc | hc <;> simp [hc]

/-- Without Istanbul every interleaving ends, with every call returned and the mutex free. -/
theorem bitMED_completes (hne : chainConfig.clique = true ∨ chainConfig.istanbul = none)
    (h : (newBitMED config chainConfig nodeKey miner wallets calls).run sched = some s) :
    sched.length ≤ 4 * calls.length ∧
      ((∀ i, s.step i = none) →
        (∀ t ∈ s.threads, t.next false = none) ∧ s.lock.writer = false ∧ s.lock.readers = 0) := by
  obtain ⟨hs, hi⟩ := newBitMED_run h
  rw [isIstanbul_false hne] at hi
  refine ⟨?_, fun hst => ?_⟩
  · have h₁ := Node.remaining_run h
    have h₂ : (newBitMED config chainConfig nodeKey miner wallets calls).remaining ≤ 4 * calls.length :=
      Node.remaining_init _ _ _ _ _
    omega
  · have hd : ∀ t ∈ s.threads, t.next false = none := fun t ht => by
      by_contra hn
      obtain ⟨i, s', hs'⟩ := Node.progress hs hi ht hn
      simp [hst i] at hs'
    exact ⟨hd, Node.lock_free hs hi hd⟩

theorem bitMED_completes_setBxmbase :
    ((⟨false, none⟩ : ChainConfig).clique = true ∨ (⟨false, none⟩ : ChainConfig).istanbul = none) ∧
      ∃ s, (newBitMED ⟨Address.zero, ⟨10000, 1, 2, 0, 30000⟩, false, false, false⟩ ⟨false, none⟩
          Address.zero Address.zero [] [.bxmbase, .setBxmbase Address.zero]).run
          [1, 1, 1, 0, 0, 0, 1] = some s ∧
        [1, 1, 1, 0, 0, 0, 1].length ≤ 4 * [Call.bxmbase, .setBxmbase Address.zero].length ∧
        ((∀ i, s.step i = none) →
          (∀ t ∈ s.threads, t.next false = none) ∧ s.lock.writer = false ∧ s.lock.readers = 0) :=
  ⟨Or.inr rfl, _, rfl, @bitMED_completes ⟨Address.zero, ⟨10000, 1, 2, 0, 30000⟩, false, false, false⟩
    ⟨false, none⟩ Address.zero Address.zero [] _ _ _ (Or.inr rfl) rfl⟩

theorem isIstanbul_true (hc : chainConfig.clique = false) (hi : chainConfig.istanbul.isSome) :
    (!chainConfig.clique && chainConfig.istanbul.isSome) = true := by
  simp [hc, hi]

/-- On an Istanbul chain a returned `SetBxmbase` holds `s.lock` for good. -/
theorem setBxmbase_istanbul_deadlock (hc : chainConfig.clique = false)
    (hi : chainConfig.istanbul.isSome)
    (h : (newBitMED config chainConfig nodeKey miner wallets calls).run sched = some s) {t : Thread}
    (ht : t ∈ s.threads) {a : Address} (ha : t.call = .setBxmbase a) (hr : t.next true = none)
    (sched' : List Nat) {s' : Node} (h' : s.run sched' = some s') :
    s.lock.writer = true ∧ s'.lock = s.lock ∧ s'.bxmbase = s.bxmbase ∧
      ∀ (j : Nat) (u : Thread), s.threads[j]? = some u → u.pc = 0 → s'.threads[j]? = some u := by
  obtain ⟨hs, his⟩ := newBitMED_run h
  rw [isIstanbul_true hc hi] at his
  have hw := Node.writer_of_returned hs his ht ha hr
  exact ⟨hw, Node.run_of_writer hs his hw h'⟩

theorem setBxmbase_istanbul_deadlock_startMining :
    (⟨false, some ⟨0, 0⟩⟩ : ChainConfig).clique = false ∧
      (⟨false, some ⟨0, 0⟩⟩ : ChainConfig).istanbul.isSome ∧
      ∃ s, (newBitMED ⟨Address.zero, ⟨10000, 1, 2, 0, 30000⟩, false, false, false⟩
          ⟨false, some ⟨0, 0⟩⟩ Address.zero Address.zero []
          [.setBxmbase Address.zero, .startMining]).run [1, 1, 1, 0] = some s ∧
        ⟨.setBxmbase Address.zero, 1, none⟩ ∈ s.threads ∧ ∃ s', s.run [1] = some s' ∧
        s.lock.writer = true ∧ s'.lock = s.lock ∧ s'.bxmbase = s.bxmbase ∧
        ∀ (j : Nat) (u : Thread), s.threads[j]? = some u → u.pc = 0 → s'.threads[j]? = some u :=
  ⟨rfl, rfl, _, rfl, List.mem_cons_self _ _, _, rfl,
    @setBxmbase_istanbul_deadlock ⟨Address.zero, ⟨10000, 1, 2, 0, 30000⟩, false, false, false⟩
      ⟨false, some ⟨0, 0⟩⟩ Address.zero Address.zero [] [.setBxmbase Address.zero, .startMining]
      [1, 1, 1, 0] _ rfl rfl rfl _ (List.mem_cons_self _ _) _ rfl rfl [1] _ rfl⟩

/-- On an Istanbul chain `SetBxmbase` changes nothing, and every read gets the node key. -/
theorem bxmbase_istanbul (hc : chainConfig.clique = false) (hi : chainConfig.istanbul.isSome)
    (hk : nodeKey ≠ Address.zero)
    (h : (newBitMED config chainConfig nodeKey miner wallets calls).run sched = some s) :
    s.bxmbase = nodeKey ∧
      (s.minerBxmbase = miner ∨ s.minerBxmbase = nodeKey ∧ Call.startMining ∈ calls) ∧
      ∀ t ∈ s.threads, ∀ b, t.read = some b → ∀ w, bxmbaseResult b w = .ok nodeKey := by
  have his : (newBitMED config chainConfig nodeKey miner wallets calls).istanbul = true :=
    (createConsensusEngine_isIstanbul config chainConfig).trans (isIstanbul_true hc hi)
  have hf := Node.run_frozen his (Node.init_frozen _ _ _ miner calls) h
  rw [show newBxmbase config chainConfig nodeKey = nodeKey from if_pos hi] at hf
  refine ⟨hf.bxmbase, ?_, fun t ht b hr w => ?_⟩
  · rcases hf.miner with hm | ⟨hm, hsm⟩
    · exact .inl hm
    · rw [startMiningBxmbase_of_isIstanbul ((Node.run_istanbul h).trans his) hk] at hm
      exact .inr ⟨(Option.some.inj hm), (Node.run_calls h).trans (Node.init_calls _ _ _ _ _) ▸ hsm⟩
  · rcases hf.reads t ht with hn | hn <;> rw [hr] at hn <;> cases hn
    exact if_pos hk

theorem bxmbase_istanbul_startMining :
    (⟨false, some ⟨0, 0⟩⟩ : ChainConfig).clique = false ∧
      (⟨false, some ⟨0, 0⟩⟩ : ChainConfig).istanbul.isSome ∧
      (⟨List.replicate 20 1, rfl⟩ : Address) ≠ Address.zero ∧
      ∃ s, (newBitMED ⟨Address.zero, ⟨10000, 1, 2, 0, 30000⟩, false, false, false⟩
          ⟨false, some ⟨0, 0⟩⟩ ⟨List.replicate 20 1, rfl⟩ Address.zero []
          [.startMining, .setBxmbase Address.zero]).run [0, 0, 0, 0, 1] = some s ∧
        s.bxmbase = ⟨List.replicate 20 1, rfl⟩ ∧
        (s.minerBxmbase = Address.zero ∨ s.minerBxmbase = ⟨List.replicate 20 1, rfl⟩ ∧
          Call.startMining ∈ [Call.startMining, .setBxmbase Address.zero]) ∧
        ∀ t ∈ s.threads, ∀ b, t.read = some b → ∀ w,
          bxmbaseResult b w = .ok ⟨List.replicate 20 1, rfl⟩ :=
  ⟨rfl, rfl, by decide, _, rfl,
    @bxmbase_istanbul ⟨Address.zero, ⟨10000, 1, 2, 0, 30000⟩, false, false, false⟩
      ⟨false, some ⟨0, 0⟩⟩ _ _ [] [.startMining, .setBxmbase Address.zero] [0, 0, 0, 0, 1] _ rfl rfl
      (by decide) rfl⟩

end System

end Bxmp
