import HotaruMqtt.Topic
import HotaruMqtt.Exec.Table
import Mathlib.Data.List.Perm.Basic
import Mathlib.Data.List.Forall2

/-!
# The subscription tree

`SubscriptionTree` of `broker.rs`: for each filter the clients that hold it, with
the granted QoS.  The outer keys are never removed.  `granted` reads the tree as
a relation, and each operation is described by what it does to that relation.
-/

namespace HotaruMqtt.Broker

open Exec Topic

/-- The identifier a client connects with. -/
abbrev ClientId := String

/-- The subscribers of each filter, with the level granted to each.  The source names it a
tree; it is a map. -/
structure SubscriptionTree where
  subs : Table String (Table ClientId QoS)

namespace SubscriptionTree

/-- No filter is known. -/
def new : SubscriptionTree :=
  ⟨∅⟩

/-- The clients of a filter; a filter that was never used has none. -/
def clients (tree : SubscriptionTree) (filter : String) : Table ClientId QoS :=
  (tree.subs.lookup filter).getD ∅

/-- The QoS a client holds a filter with. -/
def granted (tree : SubscriptionTree) (filter : String) (client : ClientId) : Option QoS :=
  (tree.clients filter).lookup client

/-- `entry(filter).or_insert_with(..)`: the filter has a set of clients. -/
def openFilter (tree : SubscriptionTree) (filter : String) : SubscriptionTree :=
  ⟨tree.subs.insert filter (tree.clients filter)⟩

/-- The set of the filter is made if need be, and the client put into it, over what it had
there. -/
def subscribe (tree : SubscriptionTree) (client : ClientId) (filter : String) (qos : QoS) :
    SubscriptionTree :=
  ⟨tree.subs.insert filter ((tree.clients filter).insert client qos)⟩

/-- The client is dropped from the set of the filter; an empty set stays. -/
def unsubscribe (tree : SubscriptionTree) (client : ClientId) (filter : String) :
    SubscriptionTree :=
  match tree.subs.lookup filter with
  | some set => ⟨tree.subs.insert filter (set.erase client)⟩
  | none => tree

/-- Visit every filter and drop the client from its set. -/
def removeClient (tree : SubscriptionTree) (client : ClientId) : SubscriptionTree :=
  tree.subs.keys.foldl (fun tree filter => tree.unsubscribe client filter) tree

/-- Every subscription whose filter matches the topic, with the filter. -/
def matchingFilters (tree : SubscriptionTree) (topic : String) :
    List (String × ClientId × QoS) :=
  tree.subs.entries.flatMap fun entry =>
    if filterMatches entry.1 (segments topic) then
      entry.2.entries.map fun sub => (entry.1, sub.1, sub.2)
    else
      []

/-- The client and the QoS of every subscription whose filter matches. -/
def matching (tree : SubscriptionTree) (topic : String) : List (ClientId × QoS) :=
  (tree.matchingFilters topic).map Prod.snd

/-- The filters that a client holds. -/
def filtersOf (tree : SubscriptionTree) (client : ClientId) : List String :=
  tree.subs.keys.filter fun filter => (tree.granted filter client).isSome

variable {tree : SubscriptionTree} {client other : ClientId} {filter visited topic : String}
  {qos : QoS}

@[simp]
theorem granted_new : new.granted filter client = none := by
  simp [granted, clients, new]

@[simp]
theorem granted_openFilter :
    (tree.openFilter visited).granted filter client = tree.granted filter client := by
  simp only [granted, clients, openFilter, Table.lookup_insert]
  split
  · rename_i same
    rw [same, Option.getD_some]
  · rfl

@[simp]
theorem granted_subscribe :
    (tree.subscribe other visited qos).granted filter client =
      if filter = visited ∧ client = other then some qos else tree.granted filter client := by
  simp only [granted, clients, subscribe, Table.lookup_insert]
  by_cases same : filter = visited
  · rw [if_pos same, Option.getD_some, Table.lookup_insert, same]
    simp
  · simp [same]

@[simp]
theorem granted_unsubscribe :
    (tree.unsubscribe other visited).granted filter client =
      if filter = visited ∧ client = other then none else tree.granted filter client := by
  unfold unsubscribe
  split
  · rename_i set found
    simp only [granted, clients, Table.lookup_insert]
    by_cases same : filter = visited
    · rw [if_pos same, Option.getD_some, Table.lookup_erase, same, found]
      simp
    · simp [same]
  · rename_i missing
    split
    · rename_i same
      rw [same.1, granted, clients, missing]
      simp
    · rfl

/-- Dropping a client from a list of filters. -/
theorem granted_foldl_unsubscribe (visits : List String) :
    (visits.foldl (fun tree filter => tree.unsubscribe other filter) tree).granted filter client =
      if filter ∈ visits ∧ client = other then none else tree.granted filter client := by
  induction visits generalizing tree with
  | nil => simp
  | cons visited visits ih =>
      rw [List.foldl_cons, ih, granted_unsubscribe]
      by_cases sameClient : client = other <;> by_cases later : filter ∈ visits <;>
        simp [sameClient, later]

/-- A filter that nobody ever used is granted to nobody. -/
theorem granted_eq_none_of_not_mem (missing : filter ∉ tree.subs.keys) :
    tree.granted filter client = none := by
  have absent : tree.subs.lookup filter = none := AList.lookup_eq_none.mpr missing
  simp [granted, clients, absent]

theorem mem_filtersOf :
    filter ∈ tree.filtersOf client ↔ ∃ qos, tree.granted filter client = some qos := by
  rw [filtersOf, List.mem_filter, Option.isSome_iff_exists]
  constructor
  · exact And.right
  · intro held
    refine ⟨?_, held⟩
    by_contra missing
    rcases held with ⟨qos, held⟩
    rw [granted_eq_none_of_not_mem missing] at held
    contradiction

@[simp]
theorem granted_removeClient :
    (tree.removeClient other).granted filter client =
      if client = other then none else tree.granted filter client := by
  rw [removeClient, granted_foldl_unsubscribe]
  by_cases sameClient : client = other
  · by_cases known : filter ∈ tree.subs.keys
    · simp [sameClient, known]
    · simp [sameClient, granted_eq_none_of_not_mem known]
  · simp [sameClient]

/-! ## What a snapshot holds -/

theorem mem_matchingFilters :
    (filter, client, qos) ∈ tree.matchingFilters topic ↔
      Matches filter topic ∧ tree.granted filter client = some qos := by
  constructor
  · intro listed
    rcases List.mem_flatMap.mp listed with ⟨entry, entryMem, subMem⟩
    split at subMem
    · rename_i matched
      rcases List.mem_map.mp subMem with ⟨sub, subListed, same⟩
      cases same
      refine ⟨matched, ?_⟩
      rw [granted, clients, Table.mem_entries_iff.mp entryMem, Option.getD_some]
      exact Table.mem_entries_iff.mp subListed
    · exact absurd subMem List.not_mem_nil
  · rintro ⟨matched, held⟩
    rw [granted, clients] at held
    cases found : tree.subs.lookup filter with
    | none => simp [found] at held
    | some set =>
        rw [found, Option.getD_some] at held
        refine List.mem_flatMap.mpr ⟨⟨filter, set⟩, Table.mem_entries_iff.mpr found, ?_⟩
        rw [if_pos (show filterMatches filter (segments topic) = true from matched)]
        exact List.mem_map.mpr ⟨⟨client, qos⟩, Table.mem_entries_iff.mpr held, rfl⟩

theorem mem_matching :
    (client, qos) ∈ tree.matching topic ↔
      ∃ filter, Matches filter topic ∧ tree.granted filter client = some qos := by
  simp only [matching, List.mem_map, Prod.exists, Prod.mk.injEq]
  constructor
  · rintro ⟨filter, _, _, listed, rfl, rfl⟩
    exact ⟨filter, mem_matchingFilters.mp listed⟩
  · rintro ⟨filter, held⟩
    exact ⟨filter, client, qos, mem_matchingFilters.mpr held, rfl, rfl⟩

/-- No subscription is listed twice. -/
theorem nodup_matchingFilters :
    ((tree.matchingFilters topic).map fun found => (found.1, found.2.1)).Nodup := by
  have outer : (tree.subs.entries.map Sigma.fst).Nodup := tree.subs.nodupKeys
  rw [matchingFilters, List.map_flatMap, List.nodup_flatMap]
  constructor
  · intro entry _
    split
    · have inner : (entry.2.entries.map Sigma.fst).Nodup := entry.2.nodupKeys
      rw [List.map_map]
      refine List.Nodup.of_map Prod.snd ?_
      rw [List.map_map]
      exact inner
    · exact List.nodup_nil
  · refine (List.pairwise_map.mp outer).imp fun {first second} differ => ?_
    have filterOf : ∀ (entry : Sigma fun _ : String => Table ClientId QoS) found,
        found ∈ (if filterMatches entry.1 (segments topic) then
          entry.2.entries.map fun sub => (entry.1, sub.1, sub.2) else []).map
            (fun found => (found.1, found.2.1)) → found.1 = entry.1 := by
      intro entry found listed
      split at listed
      · simp only [List.map_map, List.mem_map, Function.comp_apply] at listed
        rcases listed with ⟨_, _, rfl⟩
        rfl
      · simp at listed
    intro found inFirst inSecond
    exact differ ((filterOf first found inFirst).symm.trans (filterOf second found inSecond))

/-- Any arrangement of a snapshot comes from an arrangement of the subscriptions
with their filters. -/
theorem exists_filters_of_perm {subs : List (ClientId × QoS)}
    (arranged : subs.Perm (tree.matching topic)) :
    ∃ found : List (String × ClientId × QoS),
      found.Perm (tree.matchingFilters topic) ∧ subs = found.map Prod.snd := by
  have pairs : List.Forall₂ (fun sub found => sub = Prod.snd found) (tree.matching topic)
      (tree.matchingFilters topic) :=
    List.forall₂_map_left_iff.mpr (List.forall₂_same.mpr fun _ _ => rfl)
  rcases List.perm_comp_forall₂ arranged pairs with ⟨found, related, perm⟩
  refine ⟨found, perm, ?_⟩
  have same := List.forall₂_map_right_iff.mpr related
  rwa [List.forall₂_eq_eq_eq] at same

/-- In any arrangement of a snapshot, the part of one client lists its matching
filters, each once, with the QoS it is held with. -/
theorem exists_filters_of_client {subs : List (ClientId × QoS)}
    (arranged : subs.Perm (tree.matching topic)) (client : ClientId) :
    ∃ held : List (String × QoS), (held.map Prod.fst).Nodup ∧
      (∀ filter qos, (filter, qos) ∈ held ↔
        Matches filter topic ∧ tree.granted filter client = some qos) ∧
      subs.filter (fun sub => sub.1 = client) = held.map fun entry => (client, entry.2) := by
  rcases exists_filters_of_perm arranged with ⟨found, perm, rfl⟩
  have distinct : (found.map fun entry => (entry.1, entry.2.1)).Nodup :=
    (perm.map _).nodup_iff.mpr nodup_matchingFilters
  let own := found.filter fun entry => entry.2.1 = client
  have isOwn : ∀ entry ∈ own, entry ∈ found ∧ entry.2.1 = client := fun entry listed =>
    ⟨List.mem_of_mem_filter listed, by simpa using List.of_mem_filter listed⟩
  refine ⟨own.map fun entry => (entry.1, entry.2.2), ?_, fun filter qos => ?_, ?_⟩
  · rw [List.map_map]
    refine List.Nodup.map_on ?_ ((List.Nodup.of_map _ distinct).filter _)
    intro first firstListed second secondListed sameFilter
    have firstOwn := isOwn first firstListed
    have secondOwn := isOwn second secondListed
    exact List.inj_on_of_nodup_map distinct firstOwn.1 secondOwn.1
      (Prod.ext sameFilter (firstOwn.2.trans secondOwn.2.symm))
  · rw [← mem_matchingFilters, ← perm.mem_iff]
    constructor
    · intro listed
      rcases List.mem_map.mp listed with ⟨⟨_, _, _⟩, entryListed, same⟩
      cases same
      have entryOwn := isOwn _ entryListed
      exact entryOwn.2 ▸ entryOwn.1
    · intro listed
      exact List.mem_map.mpr ⟨(filter, client, qos), List.mem_filter.mpr ⟨listed, by simp⟩, rfl⟩
  · rw [List.filter_map, List.map_map]
    exact List.map_congr_left fun entry listed => Prod.ext (isOwn entry listed).2 rfl

end SubscriptionTree

end HotaruMqtt.Broker
