import Bxmp.Bytes

namespace Bxmp

/-- Go's conversion `uint16(x)` of an `int`: its low 16 bits. -/
def goUint16 (x : Int) : UInt16 := UInt16.ofNat (x % 65536).toNat

theorem toNat_uint16_ofNat (n : Nat) : (UInt16.ofNat n).toNat = n % 65536 :=
  BitVec.toNat_ofNat n 16

theorem uint16_eq_iff {a b : UInt16} : a = b ↔ a.toNat = b.toNat :=
  ⟨congrArg UInt16.toNat, UInt16.toNat.inj⟩

theorem uint16_ofNat_add_one (n : Nat) : UInt16.ofNat n + 1 = UInt16.ofNat (n + 1) := by
  apply UInt16.toNat.inj
  show (BitVec.ofNat 16 n + BitVec.ofNat 16 1).toNat = (BitVec.ofNat 16 (n + 1)).toNat
  rw [BitVec.toNat_add, BitVec.toNat_ofNat, BitVec.toNat_ofNat, BitVec.toNat_ofNat]
  omega

/-- The parts of a static node (a `*discover.Node`) that `RegisterRaftService` reads:
`peer.ID.String()`, `peer.HasRaftPort()` and `peer.String()`. -/
structure Peer where
  id : List UInt8
  hasRaftPort : Bool
  url : List UInt8
  deriving DecidableEq, Repr

/-- `fmt`'s `%v` of a `[]string`. -/
def formatStrings (ss : List (List UInt8)) : List UInt8 :=
  bytesOf "[" ++ List.intercalate (bytesOf " ") ss ++ bytesOf "]"

/-- The message of the `Fatalf` at line 238. -/
def noPeersError (strId : List UInt8) : List UInt8 :=
  bytesOf "Raft-based consensus requires either (1) an initial peers list (in static-nodes.json) including this enode hash (" ++
    strId ++
    bytesOf "), or (2) the flag --raftjoinexisting RAFT_ID, where RAFT_ID has been issued by an existing cluster member calling `raft.addPeer(ENODE_ID)` with an enode ID containing this node\x27s enode hash."

/-- The message of the `Fatalf` at line 244. -/
def noRaftPortError (url : List UInt8) : List UInt8 :=
  bytesOf "raftport querystring parameter not specified in static-node enode ID: " ++ url ++
    bytesOf ". please check your static-nodes.json file."

/-- The message of the `Fatalf` at line 255. -/
def notFoundError (strId : List UInt8) (peerIds : List (List UInt8)) : List UInt8 :=
  bytesOf "failed to find local enode ID (" ++ strId ++ bytesOf ") amongst peer IDs: " ++
    formatStrings peerIds

/-- The loop of lines 242-252 from the peer at index `peerIdx` on, with `myId` as the peers
before it left it. A peer without a raft port ends the process. -/
def raftIdLoop (strId : List UInt8) : Nat → UInt16 → List Peer → Except (List UInt8) UInt16
  | _, myId, [] => .ok myId
  | peerIdx, myId, peer :: peers =>
    if !peer.hasRaftPort then .error (noRaftPortError peer.url)
    else raftIdLoop strId (peerIdx + 1) (if peer.id = strId then UInt16.ofNat peerIdx + 1 else myId) peers

/-- The raft ID and `joinExisting` flag that the service constructor of `RegisterRaftService`
passes to `raft.New` (lines 231-257), or the message it exits with. -/
def raftId (joinExistingId : Int) (strId : List UInt8) (peers : List Peer) :
    Except (List UInt8) (UInt16 × Bool) :=
  if joinExistingId > 0 then .ok (goUint16 joinExistingId, true)
  else if peers.length = 0 then .error (noPeersError strId)
  else
    match raftIdLoop strId 0 0 peers with
    | .error e => .error e
    | .ok myId =>
      if myId = 0 then .error (notFoundError strId (peers.map Peer.id)) else .ok (myId, false)

/-- What `RegisterRaftService` hands `raft.New` from its flags and the static nodes. -/
structure RaftArgs where
  raftId : UInt16
  raftPort : UInt16
  joinExisting : Bool
  deriving DecidableEq, Repr

/-- `RegisterRaftService` with the flags `--raftjoinexisting` and `--raftport` as
`ctx.GlobalInt` reads them. -/
def registerRaftService (joinExistingId raftPort : Int) (strId : List UInt8) (peers : List Peer) :
    Except (List UInt8) RaftArgs :=
  (raftId joinExistingId strId peers).map fun r => ⟨r.1, goUint16 raftPort, r.2⟩

/-- The index of the last peer whose ID is `strId`. -/
def lastIndexOf (strId : List UInt8) : List Peer → Option Nat
  | [] => none
  | peer :: peers =>
    match lastIndexOf strId peers with
    | some k => some (k + 1)
    | none => if peer.id = strId then some 0 else none

/-- With a raft port on every peer the loop gives the last match plus one, or `myId`. -/
theorem raftIdLoop_ok (strId : List UInt8) {peers : List Peer} (h : ∀ p ∈ peers, p.hasRaftPort) :
    ∀ (peerIdx : Nat) (myId : UInt16), raftIdLoop strId peerIdx myId peers =
      .ok (match lastIndexOf strId peers with
        | some k => UInt16.ofNat (peerIdx + k + 1)
        | none => myId) := by
  induction peers with
  | nil => intro _ _; rfl
  | cons peer peers ih =>
    intro peerIdx myId
    have hp : peer.hasRaftPort := h peer (List.mem_cons_self _ _)
    rw [raftIdLoop, if_neg (by simpa using hp), ih (fun p hq => h p (List.mem_cons_of_mem _ hq))]
    simp only [lastIndexOf]
    cases lastIndexOf strId peers with
    | some k => simp only [Nat.add_assoc, Nat.add_comm 1 k]
    | none => by_cases he : peer.id = strId <;> simp [he, uint16_ofNat_add_one]

/-- The first peer without a raft port ends the loop, whatever comes before or after it. -/
theorem raftIdLoop_noRaftPort (strId : List UInt8) {pre : List Peer} {peer : Peer}
    (post : List Peer) (hpre : ∀ p ∈ pre, p.hasRaftPort) (hp : peer.hasRaftPort = false) :
    ∀ (peerIdx : Nat) (myId : UInt16),
      raftIdLoop strId peerIdx myId (pre ++ peer :: post) = .error (noRaftPortError peer.url) := by
  induction pre with
  | nil => intro _ _; simp [raftIdLoop, hp]
  | cons q pre ih =>
    intro peerIdx myId
    have hq : q.hasRaftPort := hpre q (List.mem_cons_self _ _)
    rw [List.cons_append, raftIdLoop, if_neg (by simpa using hq)]
    exact ih (fun p hr => hpre p (List.mem_cons_of_mem _ hr)) _ _

theorem lastIndexOf_eq_none_iff (strId : List UInt8) (peers : List Peer) :
    lastIndexOf strId peers = none ↔ ∀ p ∈ peers, p.id ≠ strId := by
  induction peers with
  | nil => simp [lastIndexOf]
  | cons peer peers ih =>
    simp only [lastIndexOf, List.mem_cons, forall_eq_or_imp, ← ih]
    cases lastIndexOf strId peers <;> by_cases he : peer.id = strId <;> simp [he]

/-- `lastIndexOf` is the index of a matching peer with no match after it. -/
theorem lastIndexOf_eq_some_iff (strId : List UInt8) (peers : List Peer) (k : Nat) :
    lastIndexOf strId peers = some k ↔
      (∃ p, peers[k]? = some p ∧ p.id = strId) ∧ ∀ q ∈ peers.drop (k + 1), q.id ≠ strId := by
  induction peers generalizing k with
  | nil => simp [lastIndexOf]
  | cons peer peers ih =>
    cases k with
    | zero =>
      simp only [lastIndexOf, List.getElem?_cons_zero, Option.some.injEq, exists_eq_left',
        List.drop_succ_cons, List.drop_zero, ← lastIndexOf_eq_none_iff]
      cases lastIndexOf strId peers <;> by_cases he : peer.id = strId <;> simp [he]
    | succ k =>
      simp only [lastIndexOf, List.getElem?_cons_succ, List.drop_succ_cons, ← ih]
      cases lastIndexOf strId peers <;> by_cases he : peer.id = strId <;> simp [he]

theorem uint16_ofNat_eq_zero (n : Nat) : UInt16.ofNat n = 0 ↔ n % 65536 = 0 := by
  rw [uint16_eq_iff, toNat_uint16_ofNat]
  rfl

/-- Without `--raftjoinexisting` the raft ID is this node's last index plus one. -/
theorem raftId_of_peers {joinExistingId : Int} {strId : List UInt8} {peers : List Peer}
    (hj : joinExistingId ≤ 0) (hne : peers ≠ []) (h : ∀ p ∈ peers, p.hasRaftPort) :
    raftId joinExistingId strId peers =
      match lastIndexOf strId peers with
      | some k =>
        if (k + 1) % 65536 = 0 then .error (notFoundError strId (peers.map Peer.id))
        else .ok (UInt16.ofNat (k + 1), false)
      | none => .error (notFoundError strId (peers.map Peer.id)) := by
  rw [raftId, if_neg (by omega), if_neg (by simpa using hne), raftIdLoop_ok strId h 0 0]
  cases lastIndexOf strId peers with
  | none => rfl
  | some k =>
    simp only [Nat.zero_add]
    by_cases hk : (k + 1) % 65536 = 0
    · rw [if_pos ((uint16_ofNat_eq_zero _).mpr hk), if_pos hk]
    · rw [if_neg (mt (uint16_ofNat_eq_zero _).mp hk), if_neg hk]

theorem raftId_of_peers_second :
    (0 : Int) ≤ 0 ∧ [⟨bytesOf "a", true, bytesOf "enode://a"⟩, ⟨bytesOf "b", true, bytesOf "enode://b"⟩] ≠ ([] : List Peer) ∧
      (∀ p ∈ ([⟨bytesOf "a", true, bytesOf "enode://a"⟩, ⟨bytesOf "b", true, bytesOf "enode://b"⟩] : List Peer),
        p.hasRaftPort) ∧
      raftId 0 (bytesOf "b")
          [⟨bytesOf "a", true, bytesOf "enode://a"⟩, ⟨bytesOf "b", true, bytesOf "enode://b"⟩] =
        match lastIndexOf (bytesOf "b")
          [⟨bytesOf "a", true, bytesOf "enode://a"⟩, ⟨bytesOf "b", true, bytesOf "enode://b"⟩] with
        | some k =>
          if (k + 1) % 65536 = 0 then
            .error (notFoundError (bytesOf "b") [bytesOf "a", bytesOf "b"])
          else .ok (UInt16.ofNat (k + 1), false)
        | none => .error (notFoundError (bytesOf "b") [bytesOf "a", bytesOf "b"]) :=
  ⟨le_refl _, List.cons_ne_nil _ _, by decide, raftId_of_peers (le_refl _) (List.cons_ne_nil _ _) (by decide)⟩

/-- Without `--raftjoinexisting` the first peer without a raft port ends the process. -/
theorem raftId_noRaftPort {joinExistingId : Int} {strId : List UInt8} {pre : List Peer}
    {peer : Peer} (post : List Peer) (hj : joinExistingId ≤ 0) (hpre : ∀ p ∈ pre, p.hasRaftPort)
    (hp : peer.hasRaftPort = false) :
    raftId joinExistingId strId (pre ++ peer :: post) = .error (noRaftPortError peer.url) := by
  rw [raftId, if_neg (by omega), if_neg (by simp), raftIdLoop_noRaftPort strId post hpre hp]

theorem raftId_noRaftPort_after_self :
    (0 : Int) ≤ 0 ∧ (∀ p ∈ ([⟨bytesOf "a", true, bytesOf "enode://a"⟩] : List Peer), p.hasRaftPort) ∧
      (⟨bytesOf "b", false, bytesOf "enode://b"⟩ : Peer).hasRaftPort = false ∧
      raftId 0 (bytesOf "a") ([⟨bytesOf "a", true, bytesOf "enode://a"⟩] ++ [⟨bytesOf "b", false, bytesOf "enode://b"⟩]) =
        .error (noRaftPortError (bytesOf "enode://b")) :=
  ⟨le_refl _, by decide, rfl, raftId_noRaftPort [] (le_refl _) (by decide) rfl⟩

end Bxmp
