import Bundler.ArtifactCache
import Bundler.Proofs.Latest
import Bundler.Proofs.Table
import Mathlib.Data.List.Induction

/-!
# What an artifact cache keeps

`Exchange` is a request together with the cache that it met, and `exchanges` lists them for a
sequence of requests. `Stands` reads off such a list alone which entry an identifier should have:
the one that was stored last, unless something dropped it since. `entries_iff_stands` shows that
a cache keeps these entries and no others, by one lemma on what a single request does to the
entry of an identifier. The counts are tied to the list in the same way.
-/

namespace Bundler

namespace ArtifactCache

/-! ## Look-ups -/

/-- What a look-up finds. -/
def served (cache : ArtifactCache) (id : String) (fingerprint : Fingerprint) : Option String :=
  (cache.entries.get? id).bind fun entry =>
    if entry.fingerprint = fingerprint then some entry.artifact else none

/-- An artifact is kept under a fingerprint. -/
def Holds (cache : ArtifactCache) (id : String) (fingerprint : Fingerprint) (artifact : String) :
    Prop :=
  ∃ entry, cache.entries.get? id = some entry ∧ entry.fingerprint = fingerprint ∧
    entry.artifact = artifact

section LookUps

variable {cache after : ArtifactCache} {id artifact : String} {fingerprint : Fingerprint}

theorem Holds.served_eq (holds : cache.Holds id fingerprint artifact) (other : Fingerprint) :
    cache.served id other = if fingerprint = other then some artifact else none := by
  obtain ⟨entry, found, rfl, rfl⟩ := holds
  rw [served, found, Option.bind_some]

theorem served_eq_some_iff :
    cache.served id fingerprint = some artifact ↔ cache.Holds id fingerprint artifact := by
  simp [served, Holds, Option.bind_eq_some_iff]

theorem Holds.of_same (holds : cache.Holds id fingerprint artifact)
    (same : after.entries.get? id = cache.entries.get? id) :
    after.Holds id fingerprint artifact := by
  rwa [Holds, same]

/-- A look-up gives what is served. -/
theorem get_eq (cache : ArtifactCache) (id : String) (fingerprint : Fingerprint) :
    (cache.get id fingerprint).1 = cache.served id fingerprint := by
  rw [get, served]
  cases cache.entries.get? id with
  | none => rfl
  | some entry =>
    rw [Option.bind_some]
    dsimp only
    split <;> rfl

/-- An entry survives a look-up unless it is asked for under another fingerprint. -/
theorem get?_get {asked : String} {entry : CachedArtifact} :
    (cache.get asked fingerprint).2.entries.get? id = some entry ↔
      cache.entries.get? id = some entry ∧ (asked = id → fingerprint = entry.fingerprint) := by
  rw [get]
  cases found : cache.entries.get? asked with
  | none =>
    refine ⟨fun kept => ⟨kept, ?_⟩, And.left⟩
    rintro rfl
    rw [found] at kept
    cases kept
  | some held =>
    dsimp only
    split
    · next same =>
      refine ⟨fun kept => ⟨kept, ?_⟩, And.left⟩
      rintro rfl
      obtain rfl := Option.some.inj (found.symm.trans kept)
      exact same.symm
    · next stale =>
      by_cases own : asked = id
      · obtain rfl := own
        suffices dropped : cache.entries.get? asked = some entry →
            fingerprint ≠ entry.fingerprint by
          simpa [Table.get?_erase] using dropped
        intro kept
        obtain rfl := Option.some.inj (found.symm.trans kept)
        exact Ne.symm stale
      · simp [Table.get?_erase, own, Ne.symm own]

/-- A store under one identifier leaves the others alone. -/
theorem get?_store (cache : ArtifactCache) (stored id : String) (entry : CachedArtifact) :
    (cache.store stored entry).entries.get? id =
      if stored = id then some entry else cache.entries.get? id := by
  simp [store, Table.get?_insert, @eq_comm _ stored]

/-- What is listed is kept, and nothing else. -/
theorem get?_retain (cache : ArtifactCache) (ids : List String) (id : String) :
    (cache.retain ids).2.entries.get? id = if id ∈ ids then cache.entries.get? id else none := by
  simp [retain, Table.get?_filter_keys]

theorem fetch_of_served {ε : Type} (found : cache.served id fingerprint = some artifact)
    (storedIn : Nat) (produce : Unit → Except ε String) :
    cache.fetch id fingerprint storedIn produce =
      (.ok ⟨artifact, true⟩, (cache.get id fingerprint).2) := by
  rw [← get_eq] at found
  rw [fetch, ← Prod.mk.eta (p := cache.get id fingerprint), found]

theorem fetch_of_error {ε : Type} {error : ε} {produce : Unit → Except ε String}
    (missing : cache.served id fingerprint = none) (fails : produce () = .error error)
    (storedIn : Nat) :
    cache.fetch id fingerprint storedIn produce = (.error error, (cache.get id fingerprint).2) := by
  rw [← get_eq] at missing
  rw [fetch, ← Prod.mk.eta (p := cache.get id fingerprint), missing]
  simp only [fails]

theorem fetch_of_ok {ε : Type} {produce : Unit → Except ε String}
    (missing : cache.served id fingerprint = none) (makes : produce () = .ok artifact)
    (storedIn : Nat) :
    cache.fetch id fingerprint storedIn produce = (.ok ⟨artifact, false⟩,
      (cache.get id fingerprint).2.store id ⟨fingerprint, artifact, storedIn⟩) := by
  rw [← get_eq] at missing
  rw [fetch, ← Prod.mk.eta (p := cache.get id fingerprint), missing]
  simp only [makes]

/-- A read through the cache gives what is served, or makes it and keeps it. Other modules are left
alone. -/
theorem fetch_eq (cache : ArtifactCache) (id text : String) (fingerprint : Fingerprint)
    (storedIn : Nat) :
    ∃ after, cache.fetch id fingerprint storedIn (fun _ => (.ok text : Except Empty String)) =
        (.ok ⟨(cache.served id fingerprint).getD text, (cache.served id fingerprint).isSome⟩, after) ∧
      after.Holds id fingerprint ((cache.served id fingerprint).getD text) ∧
      ∀ other, other ≠ id → after.entries.get? other = cache.entries.get? other := by
  have looked : ∀ other, other ≠ id →
      (cache.get id fingerprint).2.entries.get? other = cache.entries.get? other := by
    intro other different
    refine Option.ext fun entry => get?_get.trans ⟨And.left, fun held => ⟨held, fun same => ?_⟩⟩
    exact absurd same.symm different
  cases found : cache.served id fingerprint with
  | none =>
    refine ⟨_, fetch_of_ok found rfl storedIn, ⟨⟨fingerprint, text, storedIn⟩, ?_, rfl, rfl⟩, ?_⟩
    · rw [get?_store, if_pos rfl, Option.getD_none]
    · intro other different
      rw [get?_store, if_neg different.symm, looked other different]
  | some artifact =>
    obtain ⟨entry, held, same, rfl⟩ := served_eq_some_iff.1 found
    exact ⟨_, fetch_of_served found storedIn _,
      ⟨entry, get?_get.2 ⟨held, fun _ => same.symm⟩, same, rfl⟩, looked⟩

end LookUps

/-! ## Requests -/

variable {ε : Type}

/-- What can be asked of a cache. -/
inductive Request (ε : Type) where
  | get (id : String) (fingerprint : Fingerprint)
  | store (id : String) (entry : CachedArtifact)
  | fetch (id : String) (fingerprint : Fingerprint) (storedIn : Nat)
      (produce : Unit → Except ε String)
  | retain (ids : List String)
  | clear

/-- What a cache replies. -/
inductive Reply (ε : Type) where
  | done
  | looked (found : Option String)
  | fetched (result : Except ε Fetched)
  | dropped (count : Nat)

/-- Serve a request. -/
def serve (cache : ArtifactCache) : Request ε → Reply ε × ArtifactCache
  | .get asked fingerprint => (cache.get asked fingerprint).map .looked id
  | .store stored entry => (.done, cache.store stored entry)
  | .fetch asked fingerprint storedIn produce =>
    (cache.fetch asked fingerprint storedIn produce).map .fetched id
  | .retain ids => (cache.retain ids).map .dropped id
  | .clear => (.done, cache.clear)

/-- The cache after some requests. -/
def after (cache : ArtifactCache) (requests : List (Request ε)) : ArtifactCache :=
  requests.foldl (fun cache request => (cache.serve request).2) cache

/-- A request and the cache that it met. -/
structure Exchange (ε : Type) where
  cache : ArtifactCache
  request : Request ε

def exchanges (cache : ArtifactCache) : List (Request ε) → List (Exchange ε)
  | [] => []
  | request :: requests => ⟨cache, request⟩ :: exchanges (cache.serve request).2 requests

theorem exchanges_concat (cache : ArtifactCache) (requests : List (Request ε))
    (request : Request ε) :
    cache.exchanges (requests ++ [request]) =
      cache.exchanges requests ++ [⟨cache.after requests, request⟩] := by
  induction requests generalizing cache with
  | nil => rfl
  | cons first rest ih => exact congrArg (_ :: ·) (ih _)

theorem after_concat (cache : ArtifactCache) (requests : List (Request ε)) (request : Request ε) :
    cache.after (requests ++ [request]) = ((cache.after requests).serve request).2 :=
  List.foldl_concat ..

namespace Request

/-- A look-up, alone or before a read through the cache. -/
def looksUp : Request ε → Bool
  | get .. | fetch .. => true
  | _ => false

/-- Takes away what is kept under an identifier for a fingerprint: a look-up under another
fingerprint, a list of what to retain without the identifier, a clearing. -/
def Drops (id : String) (fingerprint : Fingerprint) : Request ε → Prop
  | get asked other | fetch asked other .. => asked = id ∧ other ≠ fingerprint
  | retain ids => id ∉ ids
  | clear => True
  | store .. => False

end Request

namespace Exchange

def reply (exchange : Exchange ε) : Reply ε := (exchange.cache.serve exchange.request).1

/-- The entry that is stored: the one of a store, or what a read-through had to make. -/
def stored? (exchange : Exchange ε) : Option (String × CachedArtifact) :=
  match exchange.request, exchange.reply with
  | .store id entry, _ => some (id, entry)
  | .fetch id fingerprint storedIn _, .fetched (.ok ⟨artifact, false⟩) =>
    some (id, ⟨fingerprint, artifact, storedIn⟩)
  | _, _ => none

/-- An entry is there already when one is stored under its identifier. A read-through has looked
it up by then. -/
def replaces (exchange : Exchange ε) : Bool :=
  match exchange.request with
  | .store id _ => exchange.cache.entries.contains id
  | .fetch id fingerprint .. =>
    exchange.stored?.isSome && (exchange.cache.get id fingerprint).2.entries.contains id
  | _ => false

end Exchange

/-- The entry was stored by the last store of its identifier, and nothing has dropped it since. -/
def Stands (log : List (Exchange ε)) (id : String) (entry : CachedArtifact) : Prop :=
  ∃ exchange, Latest (fun storing => storing.stored? = some (id, entry))
    (fun later => (∀ other, later.stored? ≠ some (id, other)) ∧
      ¬ later.request.Drops id entry.fingerprint) log exchange

theorem stands_concat {log : List (Exchange ε)} {exchange : Exchange ε} {id : String}
    {entry : CachedArtifact} :
    Stands (log ++ [exchange]) id entry ↔ exchange.stored? = some (id, entry) ∨
      Stands log id entry ∧ (∀ other, exchange.stored? ≠ some (id, other)) ∧
        ¬ exchange.request.Drops id entry.fingerprint := by
  simp only [Stands, Latest.concat_iff, exists_or, exists_eq_left, exists_and_right]

/-! ## What one request does -/

variable (cache : ArtifactCache)

/-- A read-through looks up, and stores what it made if it found nothing. -/
theorem serve_fetch (id : String) (fingerprint : Fingerprint) (storedIn : Nat)
    (produce : Unit → Except ε String) :
    let request := Request.fetch id fingerprint storedIn produce
    ((Exchange.mk cache request).stored? = none ∧
        (cache.serve request).2 = (cache.get id fingerprint).2) ∨
      ∃ artifact,
        (Exchange.mk cache request).stored? = some (id, ⟨fingerprint, artifact, storedIn⟩) ∧
        (cache.serve request).2 =
          (cache.get id fingerprint).2.store id ⟨fingerprint, artifact, storedIn⟩ := by
  cases found : cache.served id fingerprint with
  | some artifact =>
    exact .inl (by simp [Exchange.stored?, Exchange.reply, serve, fetch_of_served found])
  | none =>
    cases made : produce () with
    | error error =>
      exact .inl (by simp [Exchange.stored?, Exchange.reply, serve, fetch_of_error found made])
    | ok artifact =>
      exact .inr ⟨artifact,
        by simp [Exchange.stored?, Exchange.reply, serve, fetch_of_ok found made]⟩

/-- An identifier has an entry because it was just stored, or because it had it before and the
request neither stores another nor drops it. -/
theorem get?_serve (request : Request ε) (id : String) (entry : CachedArtifact) :
    (cache.serve request).2.entries.get? id = some entry ↔
      (Exchange.mk cache request).stored? = some (id, entry) ∨
        cache.entries.get? id = some entry ∧
          (∀ other, (Exchange.mk cache request).stored? ≠ some (id, other)) ∧
            ¬ request.Drops id entry.fingerprint := by
  cases request with
  | get asked fingerprint =>
    change (cache.get asked fingerprint).2.entries.get? id = some entry ↔ _
    have nothing : (Exchange.mk cache (.get (ε := ε) asked fingerprint)).stored? = none := rfl
    simp [get?_get, nothing, Request.Drops]
  | store stored new =>
    change (cache.store stored new).entries.get? id = some entry ↔ _
    have stores : (Exchange.mk cache (.store (ε := ε) stored new)).stored? =
        some (stored, new) := rfl
    simp only [get?_store, stores, Request.Drops, Option.some.injEq, Prod.mk.injEq]
    by_cases own : stored = id <;> simp [own]
  | fetch asked fingerprint storedIn produce =>
    rcases cache.serve_fetch asked fingerprint storedIn produce with
      ⟨nothing, same⟩ | ⟨artifact, stores, same⟩
    · simp [same, get?_get, nothing, Request.Drops]
    · simp only [same, get?_store, stores, Request.Drops, Option.some.injEq, Prod.mk.injEq]
      by_cases own : asked = id <;> simp [own, get?_get]
  | retain ids =>
    change (cache.retain ids).2.entries.get? id = some entry ↔ _
    have nothing : (Exchange.mk cache (.retain (ε := ε) ids)).stored? = none := rfl
    simp [get?_retain, nothing, Request.Drops, and_comm]
  | clear =>
    have nothing : (Exchange.mk cache (.clear (ε := ε))).stored? = none := rfl
    simp [serve, clear, nothing, Request.Drops]

/-- A cache that began empty keeps the entries that stand, and no others. -/
theorem entries_iff_stands (requests : List (Request ε)) (id : String) (entry : CachedArtifact) :
    (empty.after requests).entries.get? id = some entry ↔
      Stands (empty.exchanges requests) id entry := by
  induction requests using List.reverseRecOn with
  | nil => simp [after, exchanges, empty, Stands, Latest.not_nil]
  | append_singleton earlier request ih =>
    rw [after_concat, get?_serve, ih, exchanges_concat, stands_concat]

/-! ## Counts -/

/-- The counts of a cache that was looked up and whose entries were replaced so many times. -/
structure Accounts (cache : ArtifactCache) (lookUps replaced : Nat) : Prop where
  sorted : cache.entries.Sorted
  lookUps : cache.counts.hits + cache.counts.misses = lookUps
  stores : cache.counts.stores = cache.size + cache.counts.evictions + replaced

namespace Accounts

variable {cache : ArtifactCache} {lookUps replaced : Nat}

theorem empty : empty.Accounts 0 0 := ⟨Table.sorted_empty, rfl, rfl⟩

/-- A look-up is a hit or a miss, and a stale entry moves from the size to the evictions. -/
theorem get (accounts : cache.Accounts lookUps replaced) (id : String) (fingerprint : Fingerprint) :
    (cache.get id fingerprint).2.Accounts (lookUps + 1) replaced := by
  obtain ⟨sorted, looked, stores⟩ := accounts
  rw [ArtifactCache.get]
  cases found : cache.entries.get? id with
  | none => exact ⟨sorted, by dsimp only; omega, stores⟩
  | some entry =>
    dsimp only
    split
    · exact ⟨sorted, by dsimp only; omega, stores⟩
    · have shrinks := sorted.size_erase id
      rw [Table.contains_eq_isSome_get?, found, Option.isSome_some, if_pos rfl] at shrinks
      refine ⟨sorted.erase id, ?_, ?_⟩
      · dsimp only
        omega
      · dsimp only [size] at stores ⊢
        omega

/-- A store adds to the size unless it replaces. -/
theorem store (accounts : cache.Accounts lookUps replaced) (id : String) (entry : CachedArtifact) :
    (cache.store id entry).Accounts lookUps (replaced + (cache.entries.contains id).toNat) := by
  obtain ⟨sorted, looked, stores⟩ := accounts
  refine ⟨sorted.insert id entry, looked, ?_⟩
  dsimp only [size, ArtifactCache.store] at stores ⊢
  rw [sorted.size_insert, stores]
  cases cache.entries.contains id with
  | true => simp only [if_true, Bool.toNat_true]; omega
  | false => simp only [Bool.false_eq_true, if_false, Bool.toNat_false]; omega

theorem retain (accounts : cache.Accounts lookUps replaced) (ids : List String) :
    (cache.retain ids).2.Accounts lookUps replaced := by
  obtain ⟨sorted, looked, stores⟩ := accounts
  have fewer : (cache.entries.filter fun id _ => ids.contains id).size ≤ cache.entries.size :=
    List.length_filter_le ..
  refine ⟨sorted.filter _, looked, ?_⟩
  dsimp only [size, ArtifactCache.retain] at stores ⊢
  omega

theorem clear (accounts : cache.Accounts lookUps replaced) :
    cache.clear.Accounts lookUps replaced := by
  obtain ⟨sorted, looked, stores⟩ := accounts
  refine ⟨Table.sorted_empty, looked, ?_⟩
  change cache.counts.stores = 0 + (cache.counts.evictions + cache.size) + replaced
  omega

theorem serve (accounts : cache.Accounts lookUps replaced) (request : Request ε) :
    (cache.serve request).2.Accounts (lookUps + request.looksUp.toNat)
      (replaced + (Exchange.mk cache request).replaces.toNat) := by
  cases request with
  | get id fingerprint => exact accounts.get id fingerprint
  | store id entry => exact accounts.store id entry
  | fetch id fingerprint storedIn produce =>
    rcases cache.serve_fetch id fingerprint storedIn produce with
      ⟨nothing, same⟩ | ⟨artifact, stores, same⟩
    · simpa [same, Exchange.replaces, nothing, Request.looksUp] using accounts.get id fingerprint
    · simpa [same, Exchange.replaces, stores, Request.looksUp] using
        (accounts.get id fingerprint).store id ⟨fingerprint, artifact, storedIn⟩
  | retain ids => exact accounts.retain ids
  | clear => exact accounts.clear

end Accounts

theorem accounts_after (requests : List (Request ε)) :
    (empty.after requests).Accounts (requests.countP Request.looksUp)
      ((empty.exchanges requests).countP Exchange.replaces) := by
  induction requests using List.reverseRecOn with
  | nil => exact .empty
  | append_singleton earlier request ih =>
    have served := ih.serve request
    rw [after_concat, exchanges_concat, List.countP_append, List.countP_append]
    simpa [List.countP_singleton, Bool.toNat, Bool.cond_eq_ite] using served

/-! ## The plain store behind the cache -/

/-- A cache that began empty answers a look-up with an artifact exactly when the artifact stands
under the fingerprint, a read-through asks its producer exactly when none does, and the counts
are those of the look-ups and the stores. -/
theorem serves_latest_store (requests : List (Request ε)) :
    let cache := empty.after requests
    let log := empty.exchanges requests
    (∀ id fingerprint artifact, (cache.get id fingerprint).1 = some artifact ↔
      ∃ storedIn, Stands log id ⟨fingerprint, artifact, storedIn⟩) ∧
    (∀ id fingerprint storedIn (produce : Unit → Except ε String),
      (∀ artifact origin, Stands log id ⟨fingerprint, artifact, origin⟩ →
        (cache.fetch id fingerprint storedIn produce).1 = .ok ⟨artifact, true⟩) ∧
      ((∀ artifact origin, ¬ Stands log id ⟨fingerprint, artifact, origin⟩) →
        (cache.fetch id fingerprint storedIn produce).1 =
          (produce ()).map fun artifact => ⟨artifact, false⟩)) ∧
    cache.counts.hits + cache.counts.misses = requests.countP Request.looksUp ∧
    cache.counts.stores =
      cache.size + cache.counts.evictions + log.countP Exchange.replaces := by
  intro cache log
  have stands : ∀ id fingerprint artifact, cache.served id fingerprint = some artifact ↔
      ∃ storedIn, Stands log id ⟨fingerprint, artifact, storedIn⟩ := by
    intro id fingerprint artifact
    simp only [served_eq_some_iff, Holds, entries_iff_stands, log, cache]
    constructor
    · rintro ⟨⟨_, _, storedIn⟩, held, rfl, rfl⟩
      exact ⟨storedIn, held⟩
    · rintro ⟨storedIn, held⟩
      exact ⟨_, held, rfl, rfl⟩
  refine ⟨fun id fingerprint artifact => ?_, fun id fingerprint storedIn produce => ⟨?_, ?_⟩,
    (accounts_after requests).lookUps, (accounts_after requests).stores⟩
  · rw [get_eq, stands]
  · intro artifact origin held
    rw [fetch_of_served ((stands id fingerprint artifact).2 ⟨origin, held⟩)]
  · intro none
    have missing : cache.served id fingerprint = .none := by
      refine Option.eq_none_iff_forall_ne_some.2 fun artifact found => ?_
      obtain ⟨origin, held⟩ := (stands id fingerprint artifact).1 found
      exact none artifact origin held
    cases made : produce () with
    | error error => rw [fetch_of_error missing made]; rfl
    | ok artifact => rw [fetch_of_ok missing made]; rfl

end ArtifactCache

end Bundler
