import Cordboard.Construction.Viewer.Scope
import Cordboard.Proof.View.Conservation
import Mathlib.Data.Prod.Lex
import Mathlib.Data.String.Basic

namespace Cordboard.Viewer
open Data Archive LiveReconciliation

/-- The keys of the entries have the order of their three parts. -/
def EntryKey.order (key : EntryKey) : String ×ₗ Nat ×ₗ String := toLex (key.graphId, toLex (key.rank, key.alias_))

theorem EntryKey.before_iff {first second : EntryKey} : first.before second = true ↔ first.order ≤ second.order := by
  simp [before, order, Prod.Lex.toLex_le_toLex]

theorem EntryKey.order_injective {first second : EntryKey} (same : first.order = second.order) : first = second := by
  cases first
  cases second
  simpa [order] using same

theorem EntryKey.before_total (first second : EntryKey) : (first.before second || second.before first) = true := by
  rw [Bool.or_eq_true, before_iff, before_iff]
  exact le_total _ _

theorem EntryKey.before_trans (first second third : EntryKey) (one : first.before second = true)
    (two : second.before third = true) : first.before third = true :=
  before_iff.mpr ((before_iff.mp one).trans (before_iff.mp two))

theorem EntryKey.before_antisymm {first second : EntryKey} (one : first.before second = true)
    (two : second.before first = true) : first = second :=
  order_injective (le_antisymm (before_iff.mp one) (before_iff.mp two))

/-- An item of a Graph has one of three forms. -/
theorem graphEntries_cases {topology : Dict String Freshness} {groups : Groups} {graphId : String}
    {item : EntryKey × GraphView} (member : item ∈ graphEntries topology groups graphId) :
    (groups.connections.members graphId = [] ∧ item = unconnectedEntry groups graphId) ∨
      (∃ connection ∈ groups.connections.members graphId, item = connectionEntry topology groups graphId connection) ∨
      item = ambiguousEntry groups graphId := by
  unfold graphEntries at member
  split at member
  · rename_i none_
    exact .inl ⟨by simpa using none_, List.mem_singleton.mp member⟩
  · rcases List.mem_append.mp member with member | member
    · obtain ⟨connection, inside, rfl⟩ := List.mem_map.mp member
      exact .inr (.inl ⟨connection, List.mem_mergeSort.mp inside, rfl⟩)
    · split at member
      · exact .inr (.inr (List.mem_singleton.mp member))
      · cases member

section
variable {probed alone : Dict String Probed} {topology own : Dict String Freshness} {runs : List RunRecord}
  {live : LiveViews} {graphId alias_ : String} {info : Probed}

/-- Only connections of this alias advertise the Graph. -/
def Attributed (groups : Groups) (alias_ graphId : String) : Prop :=
  groups.connections.members graphId ≠ [] ∧
    ∀ connection ∈ groups.connections.members graphId, connection.alias_ = alias_

/-- The sort key tells the items of a catalog apart. -/
theorem items_keyed {first second : EntryKey × GraphView}
    (one : first ∈ (graphIds (groupsOf probed runs live)).flatMap (graphEntries topology (groupsOf probed runs live)))
    (two : second ∈ (graphIds (groupsOf probed runs live)).flatMap (graphEntries topology (groupsOf probed runs live)))
    (same : first.1 = second.1) : first = second := by
  obtain ⟨graphId, _, left⟩ := List.mem_flatMap.mp one
  obtain ⟨other, _, right⟩ := List.mem_flatMap.mp two
  rcases graphEntries_cases left with ⟨_, rfl⟩ | ⟨connection, advertises, rfl⟩ | rfl
  · rcases graphEntries_cases right with ⟨_, rfl⟩ | ⟨_, _, rfl⟩ | rfl
    · obtain rfl : graphId = other := congrArg EntryKey.graphId same
      rfl
    · cases congrArg EntryKey.rank same
    · cases congrArg EntryKey.rank same
  · rcases graphEntries_cases right with ⟨_, rfl⟩ | ⟨second, advertises', rfl⟩ | rfl
    · cases congrArg EntryKey.rank same
    · obtain rfl : graphId = other := congrArg EntryKey.graphId same
      obtain rfl := connection_unique advertises advertises' (congrArg EntryKey.alias_ same)
      rfl
    · cases congrArg EntryKey.rank same
  · rcases graphEntries_cases right with ⟨_, rfl⟩ | ⟨_, _, rfl⟩ | rfl
    · cases congrArg EntryKey.rank same
    · cases congrArg EntryKey.rank same
    · obtain rfl : graphId = other := congrArg EntryKey.graphId same
      rfl

/-- One connection advertises what the full table keeps under its alias. -/
theorem members_alone (single : alone.items = [(alias_, info)]) (found : probed.get? alias_ = some info) :
    (connectionsByGraph alone).members graphId =
      ((connectionsByGraph probed).members graphId).filter fun connection => connection.alias_ = alias_ := by
  have kept : alone.items = probed.items.filter fun item => item.1 = alias_ := by
    rw [single, Dict.items_filter found]
  rw [connectionsByGraph, connectionsByGraph, Dict.members_group, Dict.members_group, kept, List.filter_map,
    List.filter_comm]
  congr 2
  refine (Dict.filter_flatMap_source ?_ probed.items).symm
  intro item pair member
  obtain ⟨_, _, rfl⟩ := List.mem_map.mp member
  rfl

theorem attributed_alone (single : alone.items = [(alias_, info)]) (found : probed.get? alias_ = some info)
    (attributed : Attributed (groupsOf probed runs live) alias_ graphId) :
    (groupsOf alone runs live).connections.members graphId =
      (groupsOf probed runs live).connections.members graphId := by
  refine (members_alone single found).trans (List.filter_eq_self.mpr fun connection member => ?_)
  exact decide_eq_true (attributed.2 connection member)

/-- A connection of the alias keeps its entry when its Graph has no Run. -/
theorem idle_entry (single : alone.items = [(alias_, info)])
    (checked : topology.get? info.endpoint = own.get? info.endpoint)
    (noRun : (runsByGraph runs).members graphId = []) (noLive : (liveByGraph runs live).members graphId = [])
    {connection : Connected} (advertises : connection ∈ (connectionsByGraph alone).members graphId) :
    connectionEntry topology (groupsOf probed runs live) graphId connection =
      connectionEntry own (groupsOf alone runs live) graphId connection := by
  obtain ⟨other, named, shape⟩ := mem_connectionsByGraph advertises
  have member := (Dict.get?_eq_some_iff _ _ _).mp named
  rw [single] at member
  have same : other = info := (Prod.mk.inj (List.mem_singleton.mp member)).2
  have endpoint : connection.endpoint = info.endpoint := by rw [shape, same]
  simp only [connectionEntry, groupsOf, noRun, noLive, ite_self, endpoint, checked]

/-- The entries of an attributed Graph are the same with the connection of the alias alone. -/
theorem attributed_entries (single : alone.items = [(alias_, info)]) (found : probed.get? alias_ = some info)
    (checked : topology.get? info.endpoint = own.get? info.endpoint)
    (attributed : Attributed (groupsOf probed runs live) alias_ graphId) :
    graphEntries topology (groupsOf probed runs live) graphId =
      graphEntries own (groupsOf alone runs live) graphId := by
  have same := attributed_alone single found attributed
  have each : ∀ connection ∈ ((groupsOf probed runs live).connections.members graphId).mergeSort
      (fun first second => first.alias_ ≤ second.alias_),
      connectionEntry topology (groupsOf probed runs live) graphId connection =
        connectionEntry own (groupsOf alone runs live) graphId connection := by
    intro connection member
    have advertises := List.mem_mergeSort.mp member
    obtain ⟨other, named, shape⟩ := mem_connectionsByGraph advertises
    rw [attributed.2 connection advertises, found] at named
    obtain rfl := Option.some.inj named
    have endpoint : connection.endpoint = info.endpoint := by rw [shape]
    simp only [connectionEntry, isAmbiguous, same, endpoint, checked]
    rfl
  simp only [graphEntries, isAmbiguous, ambiguousEntry, same, List.map_congr_left each]
  rfl

/-- The Graph has a recorded Run or a live one. -/
def Busy (runs : List RunRecord) (live : LiveViews) (graphId : String) : Prop :=
  (runsByGraph runs).members graphId ≠ [] ∨ (liveByGraph runs live).members graphId ≠ []

theorem not_busy (idle : ¬ Busy runs live graphId) :
    (runsByGraph runs).members graphId = [] ∧ (liveByGraph runs live).members graphId = [] := by
  simpa [Busy, not_or] using idle

theorem connection_within (connection : Connected) (groups : Groups) :
    (connectionEntry topology groups graphId connection).2.within alias_ = decide (connection.alias_ = alias_) := by
  simp [GraphView.within, connectionEntry, graphView]

theorem idle_entries {groups : Groups} (noRun : groups.runs.members graphId = [])
    (noLive : groups.live.members graphId = []) (some_ : groups.connections.members graphId ≠ []) :
    graphEntries topology groups graphId =
      ((groups.connections.members graphId).mergeSort fun first second => first.alias_ ≤ second.alias_).map
        (connectionEntry topology groups graphId) := by
  simp [graphEntries, some_, noRun, noLive]

/-- Without a Run the scope keeps the entries of the alias. -/
theorem idle_within (single : alone.items = [(alias_, info)]) (found : probed.get? alias_ = some info)
    (checked : topology.get? info.endpoint = own.get? info.endpoint)
    (noRun : (runsByGraph runs).members graphId = []) (noLive : (liveByGraph runs live).members graphId = []) :
    ((graphEntries topology (groupsOf probed runs live) graphId).filter fun item => item.2.within alias_).Perm
      (if ((groupsOf alone runs live).connections.members graphId).isEmpty then []
        else graphEntries own (groupsOf alone runs live) graphId) := by
  have kept : (groupsOf alone runs live).connections.members graphId =
      ((groupsOf probed runs live).connections.members graphId).filter fun connection => connection.alias_ = alias_ :=
    members_alone single found
  by_cases none_ : (groupsOf probed runs live).connections.members graphId = []
  · have nothing : (groupsOf alone runs live).connections.members graphId = [] := by rw [kept, none_, List.filter_nil]
    rw [graphEntries, if_pos (by simpa using none_), nothing]
    exact .refl _
  · have named : (fun item : EntryKey × GraphView => item.2.within alias_) ∘
        connectionEntry topology (groupsOf probed runs live) graphId =
        fun connection => decide (connection.alias_ = alias_) :=
      funext fun connection => connection_within connection _
    have equal : ∀ connection ∈ (groupsOf alone runs live).connections.members graphId,
        connectionEntry topology (groupsOf probed runs live) graphId connection =
          connectionEntry own (groupsOf alone runs live) graphId connection :=
      fun connection advertises => idle_entry single checked noRun noLive advertises
    have same := ((List.mergeSort_perm ((groupsOf probed runs live).connections.members graphId)
      fun first second => first.alias_ ≤ second.alias_).filter fun connection => connection.alias_ = alias_).map
        (connectionEntry topology (groupsOf probed runs live) graphId)
    rw [idle_entries noRun noLive none_, List.filter_map, named]
    refine same.trans ?_
    rw [← kept, List.map_congr_left equal]
    split
    · rename_i nothing
      rw [List.isEmpty_iff.mp nothing]
      exact .refl _
    · rename_i some_
      rw [idle_entries noRun noLive (by simpa using some_)]
      exact ((List.mergeSort_perm _ _).map _).symm

/-- The scope keeps of each Graph what the connection of the alias alone would show. -/
theorem entries_within (single : alone.items = [(alias_, info)]) (found : probed.get? alias_ = some info)
    (checked : topology.get? info.endpoint = own.get? info.endpoint)
    (busy : Busy runs live graphId → Attributed (groupsOf probed runs live) alias_ graphId) :
    ((graphEntries topology (groupsOf probed runs live) graphId).filter fun item => item.2.within alias_).Perm
      (if ((groupsOf alone runs live).connections.members graphId).isEmpty then []
        else graphEntries own (groupsOf alone runs live) graphId) := by
  by_cases active : Busy runs live graphId
  · have attributed := busy active
    have same := attributed_alone single found attributed
    rw [same, if_neg (by simpa using attributed.1), ← attributed_entries single found checked attributed]
    refine .of_eq (List.filter_eq_self.mpr fun item member => ?_)
    rcases graphEntries_cases member with ⟨none_, _⟩ | ⟨connection, advertises, rfl⟩ | rfl
    · exact absurd none_ attributed.1
    · rw [connection_within]
      exact decide_eq_true (attributed.2 connection advertises)
    · obtain ⟨connection, advertises⟩ := List.exists_mem_of_ne_nil _ attributed.1
      have named : alias_ ∈
          sortTexts (((groupsOf probed runs live).connections.members graphId).map Connected.alias_) := by
        rw [sortTexts, List.mem_mergeSort, ← attributed.2 connection advertises]
        exact List.mem_map_of_mem advertises
      simpa [GraphView.within, ambiguousEntry, graphView] using named
  · obtain ⟨noRun, noLive⟩ := not_busy active
    exact idle_within single found checked noRun noLive

theorem mem_visited : graphId ∈ graphIds (groupsOf probed runs live) ↔
    (groupsOf probed runs live).connections.members graphId ≠ [] ∨ Busy runs live graphId := by
  have shown : (liveByGraph runs live).members graphId ≠ [] ↔ graphId ∈ (liveByGraph runs live).keys := by
    rw [mem_keys_liveByGraph, ← Dict.members_ne_nil, ← List.length_pos_iff, ← List.length_pos_iff,
      live_members.length_eq]
  rw [mem_graphIds, Busy, shown]
  simp only [groupsOf, connectionsByGraph, runsByGraph, Dict.mem_keys_group, Dict.members_ne_nil]

/-- The items of a catalog before they are sorted. -/
def catalogItems (connections : Dict String Probed) (topology : Dict String Freshness) (runs : List RunRecord)
    (live : LiveViews) : List (EntryKey × GraphView) :=
  (graphIds (groupsOf connections runs live)).flatMap (graphEntries topology (groupsOf connections runs live))

theorem items_within (single : alone.items = [(alias_, info)]) (found : probed.get? alias_ = some info)
    (checked : topology.get? info.endpoint = own.get? info.endpoint)
    (busy : ∀ graphId, Busy runs live graphId → Attributed (groupsOf probed runs live) alias_ graphId) :
    ((catalogItems probed topology runs live).filter fun item => item.2.within alias_).Perm
      (catalogItems alone own runs live) := by
  have visited : ((graphIds (groupsOf probed runs live)).filter fun graphId =>
      !((groupsOf alone runs live).connections.members graphId).isEmpty).Perm
        (graphIds (groupsOf alone runs live)) := by
    apply (List.perm_ext_iff_of_nodup ((graphIds_nodup _).filter _) (graphIds_nodup _)).mpr
    intro graphId
    rw [List.mem_filter, mem_visited, mem_visited]
    constructor
    · intro ⟨_, some_⟩
      exact .inl (by simpa using some_)
    · intro member
      have some_ : (groupsOf alone runs live).connections.members graphId ≠ [] := by
        rcases member with some_ | active
        · exact some_
        · rw [attributed_alone single found (busy graphId active)]
          exact (busy graphId active).1
      refine ⟨.inl fun none_ => some_ ?_, by simpa using some_⟩
      exact (members_alone single found).trans (by rw [show (connectionsByGraph probed).members graphId = [] from none_,
        List.filter_nil])
  have each := List.Perm.flatMap_left (graphIds (groupsOf probed runs live)) fun graphId _ =>
    entries_within single found checked (busy graphId)
  rw [catalogItems, List.filter_flatMap]
  refine each.trans ?_
  refine .trans (.of_eq ?_) (visited.flatMap_right _)
  generalize graphIds (groupsOf probed runs live) = ids
  induction ids with
  | nil => rfl
  | cons first rest ih =>
      rw [List.flatMap_cons, ih, List.filter_cons]
      cases ((groupsOf alone runs live).connections.members first).isEmpty <;> rfl

/-- When each Graph with a Run is attributed, the scope keeps what the connection alone would show. -/
theorem catalog_within (single : alone.items = [(alias_, info)]) (found : probed.get? alias_ = some info)
    (checked : topology.get? info.endpoint = own.get? info.endpoint)
    (busy : ∀ graphId, Busy runs live graphId → Attributed (groupsOf probed runs live) alias_ graphId) :
    (catalogOf probed topology runs live).filter (GraphView.within alias_) = catalogOf alone own runs live := by
  have perm : (((catalogItems probed topology runs live).mergeSort fun first second => first.1.before second.1).filter
      fun item => item.2.within alias_).Perm
        ((catalogItems alone own runs live).mergeSort fun first second => first.1.before second.1) :=
    ((List.mergeSort_perm _ _).filter _).trans
      ((items_within single found checked busy).trans (List.mergeSort_perm _ _).symm)
  have sorted : ∀ items : List (EntryKey × GraphView),
      (items.mergeSort fun first second => first.1.before second.1).Pairwise
        fun first second => first.1.before second.1 = true :=
    List.pairwise_mergeSort (fun one two three => EntryKey.before_trans one.1 two.1 three.1)
      fun one two => EntryKey.before_total one.1 two.1
  show ((catalogItems probed topology runs live).mergeSort _ |>.map Prod.snd).filter _ =
    ((catalogItems alone own runs live).mergeSort _).map Prod.snd
  rw [List.filter_map]
  congr 1
  refine perm.eq_of_pairwise (fun one two left right before after => ?_) ((sorted _).sublist List.filter_sublist)
    (sorted _)
  have first := List.mem_mergeSort.mp (perm.mem_iff.mp left)
  exact items_keyed first (List.mem_mergeSort.mp right) (EntryKey.before_antisymm before after)

/-- An entry shows all that its Graph has, or nothing. -/
theorem entry_shares {graph : GraphView} (member : graph ∈ catalogOf probed topology runs live) :
    (graph.runs = [] ∧ graph.liveRuns = []) ∨
      (graph.runs = (runsByGraph runs).members graph.graphId ∧
        graph.liveRuns = (liveByGraph runs live).members graph.graphId) := by
  cases mem_catalogOf member with
  | unconnected graphId none_ => exact .inr ⟨rfl, rfl⟩
  | ambiguous graphId several => exact .inr ⟨rfl, rfl⟩
  | connection graphId connection advertises =>
      by_cases several : isAmbiguous (groupsOf probed runs live) graphId = true
      · exact .inl ⟨if_pos several, if_pos several⟩
      · exact .inr ⟨if_neg several, if_neg several⟩

/-- An entry with a Run in both catalogs belongs to the alias alone. -/
theorem attributed_of_shared (single : alone.items = [(alias_, info)]) (found : probed.get? alias_ = some info)
    {graph : GraphView} (alike : graph ∈ catalogOf alone own runs live)
    (full : graph ∈ catalogOf probed topology runs live) (inside : graph.within alias_ = true)
    (some_ : graph.runs ≠ [] ∨ graph.liveRuns ≠ []) : Attributed (groupsOf probed runs live) alias_ graph.graphId := by
  cases mem_catalogOf full with
  | unconnected graphId none_ => cases inside
  | connection graphId connection advertises =>
      have several : isAmbiguous (groupsOf probed runs live) graphId ≠ true := by
        intro several
        rcases some_ with shown | shown
        · exact shown (if_pos several)
        · exact shown (if_pos several)
      have named : connection.alias_ = alias_ := by
        rw [connection_within] at inside
        exact of_decide_eq_true inside
      have few : ((groupsOf probed runs live).connections.members graphId).length ≤ 1 := by
        simpa [isAmbiguous] using several
      refine ⟨List.ne_nil_of_mem advertises, fun other member => ?_⟩
      have member : other ∈ (groupsOf probed runs live).connections.members graphId := member
      have positive := List.length_pos_of_mem advertises
      obtain ⟨only, alone_⟩ := List.length_eq_one_iff.mp (Nat.le_antisymm few positive)
      rw [alone_] at member advertises
      rw [List.mem_singleton.mp member, ← List.mem_singleton.mp advertises, named]
  | ambiguous graphId several =>
      -- The scoped catalog has this entry too, so the aliases are the same list.
      have aliases : sortTexts (((groupsOf probed runs live).connections.members graphId).map Connected.alias_) =
          sortTexts (((groupsOf alone runs live).connections.members graphId).map Connected.alias_) := by
        generalize shape : (ambiguousEntry (groupsOf probed runs live) graphId).2 = entry at alike
        cases mem_catalogOf alike with
        | unconnected other none_ => cases congrArg GraphView.topologyStatus shape
        | connection other connection advertises => cases congrArg GraphView.deploymentAlias shape
        | ambiguous other several =>
            obtain rfl : graphId = other := congrArg GraphView.graphId shape
            exact congrArg GraphView.ambiguousAliases shape
      have kept : (groupsOf alone runs live).connections.members graphId =
          ((groupsOf probed runs live).connections.members graphId).filter
            fun connection => connection.alias_ = alias_ :=
        members_alone single found
      have lengths := congrArg List.length aliases
      rw [sortTexts, sortTexts, List.length_mergeSort, List.length_mergeSort, List.length_map, List.length_map,
        kept] at lengths
      have whole := List.length_filter_eq_length_iff.mp lengths.symm
      refine ⟨fun none_ => ?_, fun connection member => of_decide_eq_true (whole connection member)⟩
      have one : 1 < ((groupsOf probed runs live).connections.members graphId).length := of_decide_eq_true several
      have none_ : (groupsOf probed runs live).connections.members graphId = [] := none_
      rw [none_] at one
      cases one

/-- The scope and the connection alone agree just when each Graph with a Run is attributed. -/
theorem within_iff (single : alone.items = [(alias_, info)]) (found : probed.get? alias_ = some info)
    (checked : topology.get? info.endpoint = own.get? info.endpoint) :
    (catalogOf probed topology runs live).filter (GraphView.within alias_) = catalogOf alone own runs live ↔
      ∀ graphId, Busy runs live graphId → Attributed (groupsOf probed runs live) alias_ graphId := by
  constructor
  · intro same graphId busy
    have both : ∀ graph ∈ catalogOf alone own runs live,
        graph ∈ catalogOf probed topology runs live ∧ graph.within alias_ = true := by
      intro graph member
      rw [← same] at member
      exact List.mem_filter.mp member
    rcases busy with shown | shown
    · obtain ⟨run, member⟩ := List.exists_mem_of_ne_nil _ shown
      have recorded : run ∈ runs := by
        obtain ⟨_, inside, pair⟩ := List.mem_map.mp (Dict.mem_members_group.mp member)
        exact (Prod.mk.inj pair).2 ▸ inside
      obtain ⟨graph, entry, own_⟩ := List.mem_flatMap.mp
        ((@catalog_runs alone own runs live).mem_iff.mpr recorded)
      rcases entry_shares entry with ⟨empty, _⟩ | ⟨shares, _⟩
      · rw [empty] at own_
        cases own_
      · rw [shares] at own_
        have named : graph.graphId = graphId := (run_group own_).symm.trans (run_group member)
        rw [← named]
        exact attributed_of_shared single found entry (both graph entry).1 (both graph entry).2
          (.inl (shares ▸ List.ne_nil_of_mem own_))
    · obtain ⟨view, member⟩ := List.exists_mem_of_ne_nil _ shown
      have listed : view ∈ unrecorded runs live := by
        rw [← livePairs_views]
        exact List.mem_map.mpr ⟨_, live_group member, rfl⟩
      obtain ⟨graph, entry, own_⟩ := List.mem_flatMap.mp
        ((@catalog_live alone own runs live).mem_iff.mpr listed)
      rcases entry_shares entry with ⟨_, empty⟩ | ⟨_, shares⟩
      · rw [empty] at own_
        cases own_
      · rw [shares] at own_
        have named := (mem_livePairs (live_group own_)).symm.trans (mem_livePairs (live_group member))
        rw [← Option.some.inj named]
        exact attributed_of_shared single found entry (both graph entry).1 (both graph entry).2
          (.inr (shares ▸ List.ne_nil_of_mem own_))
  · exact catalog_within single found checked

end

section
variable {connections : Dict String Registered} {observed : Observed} {alias_ : String} {info : Registered}
  {spans : SpanMap} {liveById : Dict String LiveRun} {runs : List RunRecord} {graphId : String}

/-- The alias advertises the Graph, and no other connection does. -/
def SoleAdvertiser (connections : Dict String Registered) (observed : Observed) (alias_ graphId : String) : Prop :=
  graphId ∈ (observed.probe alias_).graphs ∧
    ∀ other ∈ connections.keys, graphId ∈ (observed.probe other).graphs → other = alias_

/-- Each Graph with a recorded Run or an unrecorded live Run has the alias as its sole advertiser. -/
def Attributable (connections : Dict String Registered) (observed : Observed) (alias_ : String)
    (liveById : Dict String LiveRun) (runs : List RunRecord) : Prop :=
  (∀ run ∈ runs, SoleAdvertiser connections observed alias_ run.graphId) ∧
    ∀ item ∈ liveById.items, item.1 ∉ runs.map RunRecord.runId → ∀ graphId, graphText item.2.graphId = some graphId →
      graphId ≠ "" → SoleAdvertiser connections observed alias_ graphId

theorem get?_topologyOf (member : info ∈ connections.items.map Prod.snd) :
    (topologyOf connections observed).get? info.endpoint = some (observed.checkFreshness info.endpoint) := by
  unfold topologyOf
  generalize Dict.empty = start
  generalize connections.items = items at member ⊢
  induction items using List.reverseRecOn with
  | nil => cases member
  | append_singleton items last ih =>
      rw [List.foldl_append, List.foldl_cons, List.foldl_nil, Dict.get?_set]
      split
      · rename_i same
        rw [same]
      · rename_i different
        rw [List.map_append, List.mem_append] at member
        rcases member with earlier | own
        · exact ih earlier
        · rw [List.map_singleton, List.mem_singleton] at own
          exact absurd (congrArg Registered.endpoint own) different

/-- The connections that advertise a Graph are those whose probe shows it. -/
theorem mem_probed {connection : Connected} {live : LiveViews} :
    connection ∈ (groupsOf (probeConnections connections observed) runs live).connections.members graphId ↔
      ∃ item ∈ connections.items, graphId ∈ (observed.probe item.1).graphs ∧
        connection = ⟨item.1, item.2.endpoint, (observed.probe item.1).reachable, item.2.graphMap⟩ := by
  rw [groupsOf, connectionsByGraph, Dict.mem_members_group, probeConnections, Dict.mapItems, List.flatMap_map,
    List.mem_flatMap]
  simp only [List.mem_map, Prod.mk.injEq]
  constructor
  · rintro ⟨item, member, _, shown, rfl, rfl⟩
    exact ⟨item, member, shown, rfl⟩
  · rintro ⟨item, member, shown, rfl⟩
    exact ⟨item, member, graphId, shown, rfl, rfl⟩

theorem attributed_iff {live : LiveViews} (registered : connections.get? alias_ = some info) :
    Attributed (groupsOf (probeConnections connections observed) runs live) alias_ graphId ↔
      SoleAdvertiser connections observed alias_ graphId := by
  have stored := (Dict.get?_eq_some_iff _ _ _).mp registered
  constructor
  · intro ⟨some_, named⟩
    have others : ∀ other ∈ connections.keys, graphId ∈ (observed.probe other).graphs → other = alias_ := by
      intro other member shown
      obtain ⟨item, inside, rfl⟩ := List.mem_map.mp member
      exact named _ (mem_probed.mpr ⟨item, inside, shown, rfl⟩)
    obtain ⟨connection, member⟩ := List.exists_mem_of_ne_nil _ some_
    obtain ⟨item, inside, shown, _⟩ := mem_probed.mp member
    have same := others item.1 (List.mem_map_of_mem inside) shown
    exact ⟨same ▸ shown, others⟩
  · intro ⟨shown, others⟩
    refine ⟨List.ne_nil_of_mem (mem_probed.mpr ⟨_, stored, shown, rfl⟩), fun connection member => ?_⟩
    obtain ⟨item, inside, also, rfl⟩ := mem_probed.mp member
    exact others item.1 (List.mem_map_of_mem inside) also

theorem mem_liveGraphs {live : LiveViews} : graphId ∈ (livePairs runs live).map Prod.fst ↔
    ∃ item ∈ live.views.items, item.1 ∉ runs.map RunRecord.runId ∧ item.2.graphId = some graphId ∧ graphId ≠ "" := by
  rw [List.mem_map]
  constructor
  · rintro ⟨⟨_, view⟩, member, rfl⟩
    obtain ⟨item, inside, found⟩ := List.mem_filterMap.mp member
    split at found
    · cases found
    · rename_i absent
      split at found
      · rename_i other named
        split at found
        · cases found
        · rename_i filled
          obtain ⟨rfl, rfl⟩ := Prod.mk.inj (Option.some.inj found)
          exact ⟨item, inside, by simpa using absent, named, filled⟩
      · cases found
  · rintro ⟨item, inside, absent, named, filled⟩
    refine ⟨(graphId, item.2), List.mem_filterMap.mpr ⟨item, inside, ?_⟩, rfl⟩
    rw [if_neg (by simpa using absent)]
    simp only [named, if_neg filled]

/-- A Graph is busy with a recorded Run, or with a live Run that is not recorded. -/
theorem busy_iff {now : Time} {thresholds : Thresholds} :
    Busy runs (reconcile liveById (runs.map RunRecord.runId) now thresholds) graphId ↔
      (∃ run ∈ runs, run.graphId = graphId) ∨ ∃ item ∈ liveById.items, item.1 ∉ runs.map RunRecord.runId ∧
        graphText item.2.graphId = some graphId ∧ graphId ≠ "" := by
  have lived : (liveByGraph runs (reconcile liveById (runs.map RunRecord.runId) now thresholds)).members graphId ≠ [] ↔
      ∃ item ∈ liveById.items, item.1 ∉ runs.map RunRecord.runId ∧ graphText item.2.graphId = some graphId ∧
        graphId ≠ "" := by
    rw [← List.length_pos_iff, live_members.length_eq, List.length_pos_iff, Dict.members_ne_nil, mem_liveGraphs]
    simp only [reconcile, Dict.mapItems, Dict.filter, List.mem_map, List.mem_filter]
    constructor
    · rintro ⟨_, ⟨item, ⟨inside, _⟩, rfl⟩, absent, named, filled⟩
      exact ⟨item, inside, absent, named, filled⟩
    · rintro ⟨item, inside, absent, named, filled⟩
      exact ⟨_, ⟨item, ⟨inside, by simpa using absent⟩, rfl⟩, absent, named, filled⟩
  rw [Busy, lived, runsByGraph, Dict.members_ne_nil]
  simp

theorem attributable_iff {now : Time} {thresholds : Thresholds} :
    (∀ graphId, Busy runs (reconcile liveById (runs.map RunRecord.runId) now thresholds) graphId →
      SoleAdvertiser connections observed alias_ graphId) ↔
        Attributable connections observed alias_ liveById runs := by
  constructor
  · intro every
    refine ⟨fun run member => every _ (busy_iff.mpr (.inl ⟨run, member, rfl⟩)), ?_⟩
    intro item inside absent graphId named filled
    exact every _ (busy_iff.mpr (.inr ⟨item, inside, absent, named, filled⟩))
  · intro ⟨recorded, lived⟩ graphId busy
    rcases busy_iff.mp busy with ⟨run, member, rfl⟩ | ⟨item, inside, absent, named, filled⟩
    · exact recorded run member
    · exact lived item inside absent graphId named filled

end

/-- The catalog of the board that keeps the entries of one alias. -/
def scopedBoard (connections : Dict String Registered) (alias_ : String) (observed : Observed) (spans : SpanMap)
    (liveById : Dict String LiveRun) : Except ViewFailure (List GraphView) :=
  (cmdView connections none observed spans liveById).map (List.filter (GraphView.within alias_))

section
variable {connections : Dict String Registered} {observed : Observed} {alias_ : String} {info : Registered}
  {spans : SpanMap} {liveById : Dict String LiveRun}

theorem renderCatalog_ok {probed : Dict String Probed} {topology : Dict String Freshness} {now : Time}
    {runs : List RunRecord} (built : buildExecutionTree spans = .ok runs) :
    renderCatalog probed topology spans liveById now = .ok (catalogOf probed topology runs
      (reconcile liveById (runs.map RunRecord.runId) now defaultThresholds)) := by
  simp only [renderCatalog, buildCatalog, built]
  rfl

theorem renderCatalog_error {probed : Dict String Probed} {topology : Dict String Freshness} {now : Time}
    {failure : Failure} (refused : buildExecutionTree spans = .error failure) :
    renderCatalog probed topology spans liveById now = .error (.archive failure) := by
  simp only [renderCatalog, refused]
  rfl

/-- A fresh observation probes what the command probes. -/
theorem retained_empty (status : ProbeStatus) : retainedGraphs Dict.empty alias_ status = status.graphs := by
  unfold retainedGraphs
  split
  · rfl
  · rename_i down
    rw [status.silent (by simpa using down)]
    rfl

theorem cmdView_alias (registered : connections.get? alias_ = some info) :
    cmdView connections (some alias_) observed spans liveById =
      renderCatalog (probeConnections (Dict.empty.set alias_ info) observed)
        (topologyOf (Dict.empty.set alias_ info) observed) spans liveById observed.now := by
  simp only [cmdView, registered]
  rfl

/-- The browser joins all connections before it applies the scope. -/
theorem snapshot_scoped (registered : connections.get? alias_ = some info) :
    snapshot connections (some alias_) Dict.empty observed spans liveById =
      scopedBoard connections alias_ observed spans liveById := by
  simp only [snapshot, registered, retained_empty, scopedBoard]
  show (renderCatalog (probeConnections connections observed) (topologyOf connections observed) spans liveById
    observed.now >>= _) = (renderCatalog (probeConnections connections observed) (topologyOf connections observed)
    spans liveById observed.now).map _
  cases renderCatalog (probeConnections connections observed) (topologyOf connections observed) spans liveById
    observed.now <;> rfl

theorem cmdView_scoped (registered : connections.get? alias_ = some info) {runs : List RunRecord}
    (built : buildExecutionTree spans = .ok runs) :
    cmdView connections (some alias_) observed spans liveById =
        scopedBoard connections alias_ observed spans liveById ↔
      Attributable connections observed alias_ liveById runs := by
  have stored := (Dict.get?_eq_some_iff _ _ _).mp registered
  have alike : (topologyOf connections observed).get? info.endpoint =
      (topologyOf (Dict.empty.set alias_ info) observed).get? info.endpoint := by
    rw [get?_topologyOf (List.mem_map_of_mem stored), get?_topologyOf List.mem_cons_self]
  have found : (probeConnections connections observed).get? alias_ =
      some ⟨info.endpoint, (observed.probe alias_).reachable, (observed.probe alias_).graphs, info.graphMap⟩ := by
    rw [probeConnections, Dict.get?_mapItems, registered]
    rfl
  have agreed := @within_iff (probeConnections connections observed)
    (probeConnections (Dict.empty.set alias_ info) observed) (topologyOf connections observed)
    (topologyOf (Dict.empty.set alias_ info) observed) runs
    (reconcile liveById (runs.map RunRecord.runId) observed.now defaultThresholds) alias_ _ rfl found alike
  rw [cmdView_alias registered, scopedBoard, renderCatalog_ok built]
  show Except.ok _ = (renderCatalog (probeConnections connections observed) (topologyOf connections observed) spans
    liveById observed.now).map _ ↔ _
  rw [renderCatalog_ok built]
  show Except.ok _ = Except.ok _ ↔ _
  rw [Except.ok.injEq, eq_comm, agreed]
  simp only [attributed_iff registered]
  exact attributable_iff

theorem cmdView_refused (registered : connections.get? alias_ = some info) {failure : Failure}
    (refused : buildExecutionTree spans = .error failure) :
    cmdView connections (some alias_) observed spans liveById =
      scopedBoard connections alias_ observed spans liveById := by
  rw [cmdView_alias registered, scopedBoard, renderCatalog_error refused]
  show _ = (renderCatalog (probeConnections connections observed) (topologyOf connections observed) spans
    liveById observed.now).map _
  rw [renderCatalog_error refused]
  rfl

end

/-- Two registered connections whose Deployments show the same Graph. -/
def twoConnections : Dict String Registered :=
  (Dict.empty.set "local" ⟨"http://127.0.0.1:1", Dict.empty⟩).set "copy" ⟨"http://127.0.0.1:2", Dict.empty⟩

def sharedGraph : Observed := ⟨fun _ => ⟨true, ["x"], by decide⟩, fun _ => .absent, 0⟩

end Cordboard.Viewer
