import Mathlib.Data.List.Lex
import DseDriver.TokenMap.Impl

/-!
# Ring ownership

Which token's replica list a routing key is given.  A call history keeps the
replica tables in step with a sorted ring once `build` has run, and as long as hosts
come and go through the calls that rebuild.  On such a map a key belongs to the
next token above its hash.
-/

namespace DseDriver.TokenMap

open List

variable {Token Address : Type}

/-! ## Call histories -/

/-- The calls a token map receives. -/
inductive Call (Token Address : Type) where
  | addHost (address : Address) (rack dc : String) (tokens : List Token)
  | updateHostAndBuild (address : Address) (rack dc : String) (tokens : List Token)
  | removeHostAndBuild (address : Address)
  | clearTokensAndHosts
  | addKeyspace (keyspaceName : String) (strategy : ReplicationStrategy)
  | updateKeyspaceAndBuild (keyspaceName : String) (strategy : ReplicationStrategy)
  | dropKeyspace (keyspaceName : String)
  | clearReplicasAndStrategies
  | build

/-- Whether the call leaves no token outside the replica tables. -/
def Call.keepsRing : Call Token Address → Bool
  | .addHost .. | .clearTokensAndHosts => false
  | _ => true

section

variable [DecidableEq Address] [LinearOrder Token]

def TokenMapImpl.apply (map : TokenMapImpl Token Address) :
    Call Token Address → TokenMapImpl Token Address
  | .addHost address rack dc tokens => map.addHost address rack dc tokens
  | .updateHostAndBuild address rack dc tokens => map.updateHostAndBuild address rack dc tokens
  | .removeHostAndBuild address => map.removeHostAndBuild address
  | .clearTokensAndHosts => map.clearTokensAndHosts
  | .addKeyspace keyspaceName strategy => map.updateKeyspace keyspaceName strategy false
  | .updateKeyspaceAndBuild keyspaceName strategy => map.updateKeyspace keyspaceName strategy true
  | .dropKeyspace keyspaceName => map.dropKeyspace keyspaceName
  | .clearReplicasAndStrategies => map.clearReplicasAndStrategies
  | .build => map.build

/-- A map that has been built, and changed since then only by calls that rebuild. -/
def TokenMapImpl.IsBuilt (map : TokenMapImpl Token Address) : Prop :=
  ∃ before after : List (Call Token Address), (∀ call ∈ after, call.keepsRing) ∧
    map = (before ++ .build :: after).foldl TokenMapImpl.apply .new

end

/-! ## Replica tables follow the ring -/

/-- The table has an entry for each token of the ring, or none at all. -/
def Follows (table : List (Token × List (Host Address))) (tokens : List (Token × Host Address)) :
    Prop :=
  table = [] ∨ table.map Prod.fst = tokens.map Prod.fst

theorem replicasOfWalks_tokens (tokens : List (Token × Host Address))
    (replicas : List (Host Address) → List (Host Address)) :
    (replicasOfWalks tokens replicas).map Prod.fst = tokens.map Prod.fst := by
  rw [replicasOfWalks, map_map]
  have first : (Prod.fst ∘ fun entry : (Token × Host Address) × Nat =>
      (entry.1.1, replicas (walk tokens entry.2))) = Prod.fst ∘ Prod.fst := rfl
  rw [first, ← map_map, zipIdx_map_fst]

theorem ReplicationStrategy.buildReplicas_follows (strategy : ReplicationStrategy)
    (tokens : List (Token × Host Address)) (datacenters : DatacenterMap) :
    Follows (strategy.buildReplicas tokens datacenters) tokens := by
  unfold ReplicationStrategy.buildReplicas
  split
  · unfold buildReplicasNetworkTopology
    split
    · exact .inl rfl
    · simp only []
      split
      · exact .inl rfl
      · exact .inr (replicasOfWalks_tokens tokens _)
  · unfold buildReplicasSimple
    split
    · exact .inl rfl
    · exact .inr (replicasOfWalks_tokens tokens _)
  · exact .inr (by simp [buildReplicasNonReplicated])

namespace TokenMapImpl

/-- Every replica table belongs to a keyspace with a strategy. -/
def TablesKnown (map : TokenMapImpl Token Address) : Prop :=
  ∀ keyspaceName ∈ map.replicas, keyspaceName ∈ map.strategies

/-- Every replica table follows the ring. -/
def TablesFollow (map : TokenMapImpl Token Address) : Prop :=
  ∀ keyspaceName table, map.replicas.lookup keyspaceName = some table → Follows table map.tokens

/-- A table stored by `build_replicas` follows the ring, and the others are those of
keyspaces without a strategy. -/
theorem lookup_foldl_storeReplicas (tokens : List (Token × Host Address))
    (datacenters : DatacenterMap) (entries : List (Sigma fun _ : String => ReplicationStrategy))
    (replicas : AList fun _ : String => List (Token × List (Host Address)))
    {keyspaceName : String} {table : List (Token × List (Host Address))}
    (stored : (entries.foldl (storeReplicas tokens datacenters) replicas).lookup keyspaceName =
      some table) :
    Follows table tokens ∨
      keyspaceName ∉ entries.map Sigma.fst ∧ replicas.lookup keyspaceName = some table := by
  induction entries generalizing replicas with
  | nil => exact .inr ⟨not_mem_nil, stored⟩
  | cons entry entries ih =>
    rcases ih (storeReplicas tokens datacenters replicas entry) stored with follows | ⟨absent, older⟩
    · exact .inl follows
    · by_cases same : keyspaceName = entry.1
      · subst same
        rw [storeReplicas, AList.lookup_insert, Option.some.injEq] at older
        exact .inl (older ▸ entry.2.buildReplicas_follows tokens datacenters)
      · rw [storeReplicas, AList.lookup_insert_ne same] at older
        refine .inr ⟨?_, older⟩
        rw [map_cons, mem_cons, not_or]
        exact ⟨same, absent⟩

theorem mem_foldl_storeReplicas (tokens : List (Token × Host Address))
    (datacenters : DatacenterMap) (entries : List (Sigma fun _ : String => ReplicationStrategy))
    (replicas : AList fun _ : String => List (Token × List (Host Address)))
    {keyspaceName : String} :
    keyspaceName ∈ entries.foldl (storeReplicas tokens datacenters) replicas ↔
      keyspaceName ∈ entries.map Sigma.fst ∨ keyspaceName ∈ replicas := by
  induction entries generalizing replicas with
  | nil => simp
  | cons entry entries ih =>
    rw [foldl_cons, ih, storeReplicas, AList.mem_insert, map_cons, mem_cons]
    tauto

variable {map : TokenMapImpl Token Address}

theorem TablesKnown.buildReplicas (known : map.TablesKnown) :
    map.buildReplicas.TablesKnown := by
  intro keyspaceName member
  rcases (mem_foldl_storeReplicas ..).mp member with listed | older
  · exact listed
  · exact known keyspaceName older

theorem TablesKnown.tablesFollow_buildReplicas (known : map.TablesKnown) :
    map.buildReplicas.TablesFollow := by
  intro keyspaceName table stored
  rcases lookup_foldl_storeReplicas _ _ _ _ stored with follows | ⟨absent, older⟩
  · exact follows
  · exact absurd (known keyspaceName (AList.lookup_isSome.mp (by rw [older]; rfl))) absent

/-- What a keyspace row can do to the map. -/
theorem updateKeyspace_cases (map : TokenMapImpl Token Address) (keyspaceName : String)
    (strategy : ReplicationStrategy) (shouldBuildReplicas : Bool) :
    map.updateKeyspace keyspaceName strategy shouldBuildReplicas = map ∨
    map.updateKeyspace keyspaceName strategy shouldBuildReplicas =
      { map with strategies := map.strategies.insert keyspaceName strategy } ∨
    map.updateKeyspace keyspaceName strategy shouldBuildReplicas =
      { map with
        strategies := map.strategies.insert keyspaceName strategy
        datacenters := buildDatacenters map.hosts.hosts
        replicas := storeReplicas map.tokens (buildDatacenters map.hosts.hosts) map.replicas
          ⟨keyspaceName, strategy⟩ } := by
  rw [TokenMapImpl.updateKeyspace]
  by_cases changed : map.strategyChanged keyspaceName strategy
  · rw [if_pos changed]
    cases shouldBuildReplicas with
    | false => exact .inr (.inl rfl)
    | true => exact .inr (.inr rfl)
  · rw [if_neg changed]
    exact .inl rfl

theorem updateKeyspace_tokens (map : TokenMapImpl Token Address) (keyspaceName : String)
    (strategy : ReplicationStrategy) (shouldBuildReplicas : Bool) :
    (map.updateKeyspace keyspaceName strategy shouldBuildReplicas).tokens = map.tokens := by
  rcases map.updateKeyspace_cases keyspaceName strategy shouldBuildReplicas with
    same | same | same <;> rw [same]

theorem TablesKnown.updateKeyspace (known : map.TablesKnown) (keyspaceName : String)
    (strategy : ReplicationStrategy) (shouldBuildReplicas : Bool) :
    (map.updateKeyspace keyspaceName strategy shouldBuildReplicas).TablesKnown := by
  rcases map.updateKeyspace_cases keyspaceName strategy shouldBuildReplicas with
    same | same | same <;> rw [same]
  · exact known
  · intro name member
    exact (AList.mem_insert _).mpr (.inr (known name member))
  · intro name member
    exact (AList.mem_insert _).mpr (((AList.mem_insert _).mp member).imp_right (known name))

theorem TablesFollow.updateKeyspace (follow : map.TablesFollow) (keyspaceName : String)
    (strategy : ReplicationStrategy) (shouldBuildReplicas : Bool) :
    (map.updateKeyspace keyspaceName strategy shouldBuildReplicas).TablesFollow := by
  rcases map.updateKeyspace_cases keyspaceName strategy shouldBuildReplicas with
    same | same | same <;> rw [same]
  · exact follow
  · exact follow
  · intro name table stored
    rcases lookup_foldl_storeReplicas map.tokens _ [⟨keyspaceName, strategy⟩] _ stored with
      follows | ⟨_, older⟩
    · exact follows
    · exact follow name table older

theorem TablesKnown.dropKeyspace (known : map.TablesKnown) (keyspaceName : String) :
    (map.dropKeyspace keyspaceName).TablesKnown := by
  intro name member
  rcases AList.mem_erase.mp member with ⟨other, older⟩
  exact AList.mem_erase.mpr ⟨other, known name older⟩

theorem TablesFollow.dropKeyspace (follow : map.TablesFollow) (keyspaceName : String) :
    (map.dropKeyspace keyspaceName).TablesFollow := by
  intro name table stored
  by_cases same : name = keyspaceName
  · rw [TokenMapImpl.dropKeyspace, same, AList.lookup_erase] at stored
    cases stored
  · rw [TokenMapImpl.dropKeyspace, AList.lookup_erase_ne same] at stored
    exact follow name table stored

theorem TablesKnown.clearReplicasAndStrategies (map : TokenMapImpl Token Address) :
    map.clearReplicasAndStrategies.TablesKnown := by
  intro name member
  exact absurd member (AList.notMem_empty name)

/-! ## The ring stays sorted -/

section

variable [LinearOrder Token]

/-- A sorted ring, and replica tables in step with it. -/
structure RingKept (map : TokenMapImpl Token Address) : Prop where
  sorted : map.tokens.Pairwise fun left right => left.1 ≤ right.1
  known : map.TablesKnown
  follow : map.TablesFollow

theorem sortTokens_pairwise (tokens : List (Token × Host Address)) :
    (sortTokens tokens).Pairwise fun left right => left.1 ≤ right.1 := by
  have total : Std.Total fun left right : Token × Host Address => left.1 ≤ right.1 :=
    ⟨fun left right => le_total left.1 right.1⟩
  have trans : IsTrans (Token × Host Address) fun left right => left.1 ≤ right.1 :=
    ⟨fun _ _ _ first second => le_trans first second⟩
  exact pairwise_insertionSort _ tokens

theorem mergeTokens_pairwise {left right : List (Token × Host Address)}
    (leftSorted : left.Pairwise fun first second => first.1 ≤ second.1)
    (rightSorted : right.Pairwise fun first second => first.1 ≤ second.1) :
    (mergeTokens left right).Pairwise fun first second => first.1 ≤ second.1 := by
  have trans : ∀ first second third : Token × Host Address,
      decide (first.1 ≤ second.1) = true → decide (second.1 ≤ third.1) = true →
        decide (first.1 ≤ third.1) = true := by
    intro first second third below above
    exact decide_eq_true (le_trans (of_decide_eq_true below) (of_decide_eq_true above))
  have total : ∀ first second : Token × Host Address,
      (decide (first.1 ≤ second.1) || decide (second.1 ≤ first.1)) = true := by
    intro first second
    simpa using le_total first.1 second.1
  have merged := pairwise_merge trans total left right
    (leftSorted.imp decide_eq_true) (rightSorted.imp decide_eq_true)
  exact merged.imp of_decide_eq_true

theorem RingKept.buildReplicas (sorted : map.tokens.Pairwise fun left right => left.1 ≤ right.1)
    (known : map.TablesKnown) : map.buildReplicas.RingKept where
  sorted := sorted
  known := known.buildReplicas
  follow := known.tablesFollow_buildReplicas

variable [DecidableEq Address]

theorem TablesKnown.apply (known : map.TablesKnown) (call : Call Token Address) :
    (map.apply call).TablesKnown := by
  cases call with
  | addHost address rack dc tokens => exact known
  | updateHostAndBuild address rack dc tokens => exact TablesKnown.buildReplicas known
  | removeHostAndBuild address => exact TablesKnown.buildReplicas known
  | clearTokensAndHosts => exact known
  | addKeyspace keyspaceName strategy => exact known.updateKeyspace keyspaceName strategy false
  | updateKeyspaceAndBuild keyspaceName strategy =>
    exact known.updateKeyspace keyspaceName strategy true
  | dropKeyspace keyspaceName => exact known.dropKeyspace keyspaceName
  | clearReplicasAndStrategies => exact .clearReplicasAndStrategies map
  | build => exact TablesKnown.buildReplicas known

theorem tablesKnown_foldl_apply (calls : List (Call Token Address)) :
    (calls.foldl TokenMapImpl.apply .new).TablesKnown := by
  induction calls using List.reverseRecOn with
  | nil => exact TablesKnown.clearReplicasAndStrategies .new
  | append_singleton calls call ih =>
    rw [foldl_append]
    exact ih.apply call

theorem RingKept.apply (kept : map.RingKept) {call : Call Token Address} (keeps : call.keepsRing) :
    (map.apply call).RingKept := by
  have known := kept.known.apply call
  cases call with
  | addHost address rack dc tokens => cases keeps
  | updateHostAndBuild address rack dc tokens =>
    refine RingKept.buildReplicas ?_ kept.known
    apply mergeTokens_pairwise
    · exact (kept.sorted.filter _).map _ fun _ _ below => below
    · exact sortTokens_pairwise _
  | removeHostAndBuild address => exact RingKept.buildReplicas (kept.sorted.filter _) kept.known
  | clearTokensAndHosts => cases keeps
  | addKeyspace keyspaceName strategy =>
    refine ⟨?_, known, kept.follow.updateKeyspace keyspaceName strategy false⟩
    exact (map.updateKeyspace_tokens keyspaceName strategy false).symm ▸ kept.sorted
  | updateKeyspaceAndBuild keyspaceName strategy =>
    refine ⟨?_, known, kept.follow.updateKeyspace keyspaceName strategy true⟩
    exact (map.updateKeyspace_tokens keyspaceName strategy true).symm ▸ kept.sorted
  | dropKeyspace keyspaceName => exact ⟨kept.sorted, known, kept.follow.dropKeyspace keyspaceName⟩
  | clearReplicasAndStrategies =>
    refine ⟨kept.sorted, known, fun name table stored => ?_⟩
    cases (AList.lookup_empty name).symm.trans stored
  | build => exact RingKept.buildReplicas (sortTokens_pairwise _) kept.known

theorem IsBuilt.ringKept (built : map.IsBuilt) :
    map.RingKept := by
  rcases built with ⟨before, after, keep, rfl⟩
  induction after using List.reverseRecOn with
  | nil =>
    rw [foldl_append]
    exact RingKept.buildReplicas (sortTokens_pairwise _) (tablesKnown_foldl_apply before)
  | append_singleton after call ih =>
    rw [← cons_append, ← append_assoc, foldl_append]
    refine (ih fun earlier member => keep earlier ?_).apply (keep call ?_)
    · exact mem_append_left _ member
    · exact mem_append_right _ (mem_singleton.mpr rfl)

/-- From a build on, all calls that rebuild keep the ring sorted and the tables in step with it. -/
theorem ringKept_build (before after : List (Call Token Address)) :
    ((before ++ .build :: after.filter Call.keepsRing).foldl apply .new).RingKept :=
  IsBuilt.ringKept ⟨before, _, fun _ member => (mem_filter.mp member).2, rfl⟩

end

end TokenMapImpl

/-! ## The token of a routing key -/

section

variable [LinearOrder Token]

/-- The first token above the hash, or the first of all if none is above it. -/
def NextToken (tokens : List Token) (hash token : Token) : Prop :=
  token ∈ tokens ∧
    (hash < token ∧ (∀ other ∈ tokens, hash < other → token ≤ other) ∨
      (∀ other ∈ tokens, other ≤ hash) ∧ ∀ other ∈ tokens, token ≤ other)

/-- The first token not below the hash, or the first of all if all are below it. -/
def OwningToken (tokens : List Token) (hash token : Token) : Prop :=
  token ∈ tokens ∧
    (hash ≤ token ∧ (∀ other ∈ tokens, hash ≤ other → token ≤ other) ∨
      (∀ other ∈ tokens, other < hash) ∧ ∀ other ∈ tokens, token ≤ other)

variable {table : List (Token × List (Host Address))}

/-- In a sorted table the first entry above the hash has the next token. -/
theorem nextToken_find? {hash : Token} {entry : Token × List (Host Address)}
    (sorted : table.Pairwise fun left right => left.1 ≤ right.1)
    (found : (table.find? fun entry => hash < entry.1) = some entry) :
    NextToken (table.map Prod.fst) hash entry.1 := by
  refine ⟨mem_map_of_mem (mem_of_find?_eq_some found), .inl ⟨?_, ?_⟩⟩
  · simpa using find?_some found
  · intro other member above
    rcases mem_map.mp member with ⟨stored, inTable, rfl⟩
    rcases find?_eq_some_iff_append.mp found with ⟨_, before, after, split, below⟩
    rw [split] at sorted inTable
    rcases mem_append.mp inTable with earlier | later
    · have notAbove := below stored earlier
      simp only [Bool.not_eq_true', decide_eq_false_iff_not] at notAbove
      exact absurd above notAbove
    · rcases mem_cons.mp later with rfl | later
      · exact le_refl _
      · exact rel_of_pairwise_cons (pairwise_append.mp sorted).2.1 later

/-- A hash that no token exceeds wraps around to the first entry. -/
theorem nextToken_head {first : Token × List (Host Address)} {hash : Token}
    (sorted : (first :: table).Pairwise fun left right => left.1 ≤ right.1)
    (none_above : ((first :: table).find? fun entry => hash < entry.1) = none) :
    NextToken ((first :: table).map Prod.fst) hash first.1 := by
  refine ⟨mem_map_of_mem mem_cons_self, .inr ⟨?_, ?_⟩⟩
  · intro other member
    rcases mem_map.mp member with ⟨stored, inTable, rfl⟩
    have notAbove := find?_eq_none.mp none_above stored inTable
    simpa using notAbove
  · intro other member
    rcases mem_map.mp member with ⟨stored, inTable, rfl⟩
    rcases mem_cons.mp inTable with rfl | later
    · exact le_refl _
    · exact rel_of_pairwise_cons sorted later

/-- A lookup in a sorted, non-empty table finds the entry of the next token. -/
theorem getReplicas_of_sorted (hash : List UInt8 → Token) {map : TokenMapImpl Token Address}
    {keyspaceName : String} (stored : map.replicas.lookup keyspaceName = some table)
    (nonempty : table ≠ []) (sorted : table.Pairwise fun left right => left.1 ≤ right.1)
    (routingKey : List UInt8) :
    ∃ entry ∈ table, map.getReplicas hash keyspaceName routingKey = some entry.2 ∧
      NextToken (table.map Prod.fst) (hash routingKey) entry.1 := by
  rw [TokenMapImpl.getReplicas, stored]
  cases found : table.find? fun entry => hash routingKey < entry.1 with
  | some entry =>
    refine ⟨entry, mem_of_find?_eq_some found, ?_, nextToken_find? sorted found⟩
    simp only [found]
  | none =>
    cases table with
    | nil => exact absurd rfl nonempty
    | cons first rest =>
      refine ⟨first, mem_cons_self, ?_, nextToken_head sorted found⟩
      simp only [found, head?_cons, Option.map_some]

variable [DecidableEq Address]

/-- On a built map with distinct tokens a routing key is given the replica list of the
next token above its hash. -/
theorem getReplicas_nextToken (hash : List UInt8 → Token) {map : TokenMapImpl Token Address}
    (built : map.IsBuilt) (distinct : (map.tokens.map Prod.fst).Nodup)
    {keyspaceName : String} {table : List (Token × List (Host Address))}
    (stored : map.replicas.lookup keyspaceName = some table) (nonempty : table ≠ [])
    (routingKey : List UInt8) :
    ∃ token replicas, NextToken (map.tokens.map Prod.fst) (hash routingKey) token ∧
      (∀ list, (token, list) ∈ table ↔ list = replicas) ∧
      map.getReplicas hash keyspaceName routingKey = some replicas := by
  have kept := built.ringKept
  have follows : table.map Prod.fst = map.tokens.map Prod.fst :=
    (kept.follow keyspaceName table stored).resolve_left nonempty
  have sorted : table.Pairwise fun left right => left.1 ≤ right.1 := by
    rw [← pairwise_map, follows, pairwise_map]
    exact kept.sorted
  rcases getReplicas_of_sorted hash stored nonempty sorted routingKey with
    ⟨⟨token, replicas⟩, member, result, next⟩
  rw [follows] at next
  refine ⟨token, replicas, next, fun list => ⟨fun other => ?_, fun same => same ▸ member⟩, result⟩
  rw [← follows] at distinct
  have same := inj_on_of_nodup_map distinct other member rfl
  exact (Prod.mk.inj same).2

end

/-- `ByteOrderedPartitioner::hash`: the bytes of the key, in lexicographic order. -/
def ByteOrderedPartitioner.hash (routingKey : List UInt8) : List Nat :=
  routingKey.map UInt8.toNat

/-- SimpleStrategy with one replica. -/
def oneReplica : ReplicationStrategy :=
  { ReplicationStrategy.new with type := .simple }.setFactor 1
    { count := 1, name := "replication_factor" }

/-- Two hosts with the tokens `a` and `b`. -/
def twoTokenMap : TokenMapImpl (List Nat) Nat :=
  [.addKeyspace "ks" oneReplica, .addHost 1 "rack" "dc" [[97]], .addHost 2 "rack" "dc" [[98]],
    .build].foldl TokenMapImpl.apply .new

theorem twoTokenMap_isBuilt : twoTokenMap.IsBuilt :=
  ⟨[.addKeyspace "ks" oneReplica, .addHost 1 "rack" "dc" [[97]], .addHost 2 "rack" "dc" [[98]]],
    [], by simp, rfl⟩

theorem twoTokenMap_tokens : twoTokenMap.tokens.map Prod.fst = [[97], [98]] := by
  decide

theorem twoTokenMap_replicas : twoTokenMap.replicas.lookup "ks" =
    some [([97], [⟨1, 1, 1⟩]), ([98], [⟨2, 1, 1⟩])] := by
  decide

/-- The key `b` wraps around to the token `a`. -/
theorem getReplicas_nextToken_wraps :
    ∃ token replicas, NextToken (twoTokenMap.tokens.map Prod.fst) [98] token ∧
      (∀ list, (token, list) ∈ [([97], [⟨1, 1, 1⟩]), ([98], [⟨2, 1, 1⟩])] ↔ list = replicas) ∧
      twoTokenMap.getReplicas ByteOrderedPartitioner.hash "ks" [98] = some replicas :=
  getReplicas_nextToken ByteOrderedPartitioner.hash twoTokenMap_isBuilt
    (by rw [twoTokenMap_tokens]; decide) twoTokenMap_replicas (cons_ne_nil _ _) [98]

/-- The key `a` hashes onto the token `a`, yet it is given the replicas of `b`. -/
theorem getReplicas_not_owningToken :
    twoTokenMap.IsBuilt ∧ (twoTokenMap.tokens.map Prod.fst).Nodup ∧
      twoTokenMap.replicas.lookup "ks" =
        some [([97], [⟨1, 1, 1⟩]), ([98], [⟨2, 1, 1⟩])] ∧
      OwningToken (twoTokenMap.tokens.map Prod.fst) (ByteOrderedPartitioner.hash [97]) [97] ∧
      twoTokenMap.getReplicas ByteOrderedPartitioner.hash "ks" [97] = some [⟨2, 1, 1⟩] := by
  refine ⟨twoTokenMap_isBuilt, ?_, twoTokenMap_replicas, ?_, ?_⟩
  · rw [twoTokenMap_tokens]
    decide
  · rw [twoTokenMap_tokens]
    refine ⟨mem_cons_self, .inl ⟨by decide, by decide⟩⟩
  · rw [TokenMapImpl.getReplicas, twoTokenMap_replicas]
    decide

end DseDriver.TokenMap
