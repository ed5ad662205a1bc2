import TypeBridge.Library.OrderedMap

namespace TypeBridge.Server

open Library

/-!
# The replay registry of the remote executor

An executed request reserves its nonce until it can no longer be admitted.
The registry keeps every reservation twice: by key, to refuse a replay, and by
expiry, to forget it in time. One lock makes a reservation atomic and the
clock is monotone, so a run is a list of calls in the order of their times.
-/

abbrev Instant := Nat

/-- The executor epoch and the nonce. -/
abbrev ReplayKey := String ×ₗ String

inductive ReplayStoreError where
  | replayed | capacity
  -- Only for a poisoned lock.
  | unavailable

structure ReplayReservations where
  byKey : Std.ExtTreeMap ReplayKey Instant
  -- The entries of the heap, least first.
  byExpiry : List (Instant ×ₗ ReplayKey)

def ReplayReservations.empty : ReplayReservations := ⟨∅, []⟩

def expiryOf (entry : Instant ×ₗ ReplayKey) : Instant := (ofLex entry).1

def keyOf (entry : Instant ×ₗ ReplayKey) : ReplayKey := (ofLex entry).2

def popExpired (now : Instant) (byKey : Std.ExtTreeMap ReplayKey Instant) :
    List (Instant ×ₗ ReplayKey) → ReplayReservations
  | [] => ⟨byKey, []⟩
  | entry :: later =>
      if now < expiryOf entry then ⟨byKey, entry :: later⟩
      else if byKey[keyOf entry]? = some (expiryOf entry) then
        popExpired now (byKey.erase (keyOf entry)) later
      else popExpired now byKey later

def ReplayReservations.discardExpired (reservations : ReplayReservations) (now : Instant) :
    ReplayReservations :=
  popExpired now reservations.byKey reservations.byExpiry

/-- One call of `reserve` and the time it reads once it holds the lock. -/
structure Reservation where
  now : Instant
  key : ReplayKey
  retainUntil : Instant

def Reservation.entry (call : Reservation) : Instant ×ₗ ReplayKey :=
  toLex (call.retainUntil, call.key)

def ReplayReservations.reserve (capacity : Nat) (reservations : ReplayReservations)
    (call : Reservation) : Except ReplayStoreError Unit × ReplayReservations :=
  let kept := reservations.discardExpired call.now
  if call.key ∈ kept.byKey then (.error .replayed, kept)
  else if capacity ≤ kept.byKey.size then (.error .capacity, kept)
  else
    (.ok (), {
      byKey := kept.byKey.insert call.key call.retainUntil
      byExpiry := kept.byExpiry.orderedInsert (· ≤ ·) call.entry })

def reserveAll (capacity : Nat) (calls : List Reservation) : ReplayReservations :=
  calls.foldl (fun reservations call => (reservations.reserve capacity call).2) .empty

/-! ## The log it refines -/

/-- The accepted reservations that are retained at a time. -/
def live (log : List Reservation) (now : Instant) : List Reservation :=
  log.filter fun call => now < call.retainUntil

/-- What a registry answers that never forgets an accepted reservation. -/
def logReserve (capacity : Nat) (log : List Reservation) (call : Reservation) :
    Except ReplayStoreError Unit × List Reservation :=
  if call.key ∈ (live log call.now).map Reservation.key then (.error .replayed, log)
  else if capacity ≤ (live log call.now).length then (.error .capacity, log)
  else (.ok (), log ++ [call])

/-- The answers to one call after another. -/
def answers {σ : Type} (reserve : σ → Reservation → Except ReplayStoreError Unit × σ) :
    σ → List Reservation → List (Except ReplayStoreError Unit)
  | _, [] => []
  | state, call :: later => (reserve state call).1 :: answers reserve (reserve state call).2 later

structure TimedCalls where
  calls : List Reservation
  ordered : calls.Pairwise (·.now ≤ ·.now)

/-! ## The two indices agree -/

structure Synced (held : ReplayReservations) : Prop where
  indexed : ∀ key expiry, held.byKey[key]? = some expiry ↔ toLex (expiry, key) ∈ held.byExpiry
  distinct : (held.byExpiry.map keyOf).Nodup
  sorted : held.byExpiry.Pairwise (· ≤ ·)
  sizes : held.byKey.size = held.byExpiry.length

namespace Synced

variable {byKey : Std.ExtTreeMap ReplayKey Instant} {entry : Instant ×ₗ ReplayKey}
  {later : List (Instant ×ₗ ReplayKey)} {held : ReplayReservations} {key : ReplayKey}

theorem mem_iff (synced : Synced held) : key ∈ held.byKey ↔ key ∈ held.byExpiry.map keyOf := by
  rw [Std.ExtTreeMap.mem_iff_isSome_getElem?, Option.isSome_iff_exists, List.mem_map]
  constructor
  · rintro ⟨expiry, found⟩
    exact ⟨_, (synced.indexed key expiry).mp found, rfl⟩
  · rintro ⟨entry, member, rfl⟩
    exact ⟨expiryOf entry, (synced.indexed _ _).mpr member⟩

theorem pop (synced : Synced ⟨byKey, entry :: later⟩) :
    Synced ⟨byKey.erase (keyOf entry), later⟩ where
  indexed := by
    intro key expiry
    have fresh := (List.nodup_cons.mp synced.distinct).1
    rw [OrderedMap.getElem?_erase_eq]
    split
    case isTrue same =>
      subst same
      exact ⟨nofun, fun member => (fresh (List.mem_map.mpr ⟨_, member, rfl⟩)).elim⟩
    case isFalse different =>
      rw [synced.indexed key expiry, List.mem_cons, or_iff_right]
      rintro rfl
      exact different rfl
  distinct := (List.nodup_cons.mp synced.distinct).2
  sorted := (List.pairwise_cons.mp synced.sorted).2
  sizes := by
    have present : keyOf entry ∈ byKey := synced.mem_iff.mpr (by simp)
    rw [Std.ExtTreeMap.size_erase, Std.ExtTreeMap.contains_iff_mem.mpr present]
    simp [synced.sizes]

theorem push (synced : Synced held) (fresh : key ∉ held.byKey) (expiry : Instant) :
    Synced ⟨held.byKey.insert key expiry,
      held.byExpiry.orderedInsert (· ≤ ·) (toLex (expiry, key))⟩ where
  indexed := by
    intro query other
    rw [OrderedMap.getElem?_insert_eq, List.mem_orderedInsert, ← synced.indexed]
    split
    case isTrue same =>
      subst same
      have absent : held.byKey[key]? = none := Std.ExtTreeMap.getElem?_eq_none fresh
      simp [absent, eq_comm]
    case isFalse different =>
      rw [or_iff_right]
      intro same
      exact different (congrArg keyOf same).symm
  distinct := by
    rw [((List.perm_orderedInsert _ _ _).map keyOf).nodup_iff, List.map_cons, List.nodup_cons]
    exact ⟨fun member => fresh (synced.mem_iff.mpr member), synced.distinct⟩
  sorted := synced.sorted.orderedInsert _ _
  sizes := by
    rw [Std.ExtTreeMap.size_insert, List.orderedInsert_length]
    simp [fresh, synced.sizes]

/-- Discarding keeps exactly the entries that expire later. -/
theorem popExpired (synced : Synced ⟨byKey, later⟩) (now : Instant) :
    Synced (popExpired now byKey later) ∧ (Server.popExpired now byKey later).byExpiry =
      later.filter fun entry => now < expiryOf entry := by
  induction later generalizing byKey with
  | nil => exact ⟨synced, rfl⟩
  | cons entry later ih =>
    rw [Server.popExpired]
    by_cases live : now < expiryOf entry
    · rw [if_pos live]
      refine ⟨synced, (List.filter_eq_self.mpr ?_).symm⟩
      intro other member
      have least : entry ≤ other := by
        rcases List.mem_cons.mp member with rfl | after
        · exact le_rfl
        · exact (List.pairwise_cons.mp synced.sorted).1 other after
      exact decide_eq_true (live.trans_le (Prod.Lex.monotone_fst _ _ least))
    · -- The entry's own reservation is stored, so the stale branch is never taken.
      have stored : byKey[keyOf entry]? = some (expiryOf entry) :=
        (synced.indexed _ _).mpr List.mem_cons_self
      rw [if_neg live, if_pos stored, List.filter_cons_of_neg (by simpa using live)]
      exact ih synced.pop

theorem reserve {capacity : Nat} (synced : Synced held) (call : Reservation)
    (bounded : held.byKey.size ≤ capacity) : Synced (held.reserve capacity call).2 ∧
      (held.reserve capacity call).2.byKey.size ≤ capacity := by
  obtain ⟨kept, filtered⟩ := popExpired synced call.now
  have fewer : (held.discardExpired call.now).byKey.size ≤ capacity := by
    refine le_trans (le_of_eq_of_le (kept.sizes.trans (congrArg List.length filtered)) ?_) bounded
    rw [synced.sizes]
    exact List.length_filter_le _ _
  rw [ReplayReservations.reserve]
  split_ifs with replayed full
  · exact ⟨kept, fewer⟩
  · exact ⟨kept, fewer⟩
  · refine ⟨kept.push replayed call.retainUntil, ?_⟩
    rw [Std.ExtTreeMap.size_insert]
    simpa [replayed] using Nat.lt_of_not_le full

end Synced

/-! ## Runs -/

theorem synced_empty : Synced .empty := by
  constructor <;> simp [ReplayReservations.empty]

/-- In every run both indices hold the same reservations, within the capacity. -/
theorem reservations_synced_bounded (capacity : Nat) (calls : List Reservation) :
    Synced (reserveAll capacity calls) ∧ (reserveAll capacity calls).byKey.size ≤ capacity :=
  List.foldlRecOn (motive := fun kept => Synced kept ∧ kept.byKey.size ≤ capacity) calls _
    ⟨synced_empty, by simp [ReplayReservations.empty]⟩
    fun _ holds call _ => holds.1.reserve call holds.2

/-- The registry holds what the log retains from a time on. -/
structure Retains (log : List Reservation) (held : ReplayReservations) (time : Instant) : Prop where
  synced : Synced held
  retained : ∀ now, time ≤ now → (held.byExpiry.filter fun entry => now < expiryOf entry).Perm
      ((live log now).map Reservation.entry)

variable {log : List Reservation} {held : ReplayReservations} {time : Instant}

theorem Retains.discardExpired (retains : Retains log held time) {now : Instant}
    (ordered : time ≤ now) : Retains log (held.discardExpired now) now := by
  obtain ⟨synced, filtered⟩ := Synced.popExpired retains.synced now
  refine ⟨synced, fun after notBefore => ?_⟩
  refine .trans (.of_eq ?_) (retains.retained after (ordered.trans notBefore))
  refine (congrArg (List.filter _) filtered).trans ?_
  rw [List.filter_filter]
  refine List.filter_congr fun entry _ => Bool.and_eq_left_iff_imp.mpr fun live => ?_
  exact decide_eq_true (notBefore.trans_lt (of_decide_eq_true live))

/-- One call answers as the log does and keeps the registry in step with it. -/
theorem Retains.reserve (capacity : Nat) {call : Reservation}
    (retains : Retains log held time) (ordered : time ≤ call.now) :
    (held.reserve capacity call).1 = (logReserve capacity log call).1 ∧
      Retains (logReserve capacity log call).2 (held.reserve capacity call).2 call.now := by
  have kept := retains.discardExpired ordered
  have entries := retains.retained call.now ordered
  rw [← (Synced.popExpired retains.synced call.now).2] at entries
  have sameKeys : call.key ∈ (held.discardExpired call.now).byKey ↔
      call.key ∈ (live log call.now).map Reservation.key := by
    rw [kept.synced.mem_iff]
    refine (entries.map keyOf).mem_iff.trans ?_
    rw [List.map_map]
    rfl
  have sameSize : (held.discardExpired call.now).byKey.size = (live log call.now).length := by
    rw [kept.synced.sizes]
    exact entries.length_eq.trans (List.length_map _)
  rw [logReserve, ReplayReservations.reserve]
  simp only [sameKeys, sameSize]
  split_ifs with replayed full
  · exact ⟨rfl, kept⟩
  · exact ⟨rfl, kept⟩
  · refine ⟨rfl, kept.synced.push (sameKeys.not.mpr replayed) call.retainUntil, ?_⟩
    intro now notBefore
    have old := kept.retained now notBefore
    have moved : (live (log ++ [call]) now).Perm (live (call :: log) now) :=
      (List.perm_append_singleton call log).filter _
    refine ((List.perm_orderedInsert _ _ _).filter _).trans (.trans ?_ (moved.map _).symm)
    by_cases retained : now < call.retainUntil <;>
      simpa [live, expiryOf, Reservation.entry, retained] using old

theorem Retains.answers (capacity : Nat) (retains : Retains log held time)
    {calls : List Reservation} (ordered : calls.Pairwise (·.now ≤ ·.now))
    (future : ∀ call ∈ calls, time ≤ call.now) :
    answers (ReplayReservations.reserve capacity) held calls =
      Server.answers (logReserve capacity) log calls := by
  induction calls generalizing log held time with
  | nil => rfl
  | cons call later ih =>
    obtain ⟨after, ordered⟩ := List.pairwise_cons.mp ordered
    obtain ⟨same, next⟩ := retains.reserve capacity (future call List.mem_cons_self)
    rw [Server.answers, Server.answers, same, ih next ordered after]

/-- Although it forgets what has expired, the registry answers every run as the log does. -/
theorem replay_registry_refines_log (capacity : Nat) (run : TimedCalls) :
    answers (ReplayReservations.reserve capacity) .empty run.calls =
      answers (logReserve capacity) [] run.calls := by
  have start : Retains [] .empty 0 := ⟨synced_empty, fun _ _ => .nil⟩
  exact start.answers capacity run.ordered fun _ _ => Nat.zero_le _

/-- A key is reserved, replayed, in the way of another and replaced once expired. -/
def busyCalls : TimedCalls where
  calls := [⟨0, ("k", "a"), 5⟩, ⟨1, ("k", "a"), 6⟩, ⟨2, ("k", "b"), 9⟩, ⟨5, ("k", "b"), 9⟩]
  ordered := by decide

example : answers (ReplayReservations.reserve 1) .empty busyCalls.calls =
    [.ok (), .error .replayed, .error .capacity, .ok ()] := by rfl

end TypeBridge.Server
