import DseDriver.LoadBalancing.Chain

/-!
# The live lists of the datacenter-aware policy

Each host is filed under a datacenter, in the local list or in the list of a remote one.  The
policy finds the list by the datacenter the host has when it is added or removed.
-/

namespace DseDriver.LoadBalancing

open List

namespace DCAwarePolicy

variable {policy : DCAwarePolicy} {heap : Heap} {host : HostPtr}

/-- The live list of a datacenter. -/
def liveHostsOf (policy : DCAwarePolicy) (dc : String) : List HostPtr :=
  if dc = policy.localDc then policy.localDcLiveHosts else policy.perRemoteDcLiveHosts.getHosts dc

/-- All hosts in the lists of the policy. -/
def liveHosts (policy : DCAwarePolicy) : List HostPtr :=
  policy.localDcLiveHosts ++ policy.perRemoteDcLiveHosts.entries.flatMap Sigma.snd

@[simp] theorem onRemove_localDc : (policy.onRemove heap host).localDc = policy.localDc := by
  rw [onRemove]
  split <;> rfl

theorem liveHostsOf_onRemove (dc : String) :
    (policy.onRemove heap host).liveHostsOf dc =
      if dc = (heap host).dc then removeHost (policy.liveHostsOf dc) host
      else policy.liveHostsOf dc := by
  rw [liveHostsOf, onRemove_localDc, onRemove, liveHostsOf]
  by_cases isLocal : (heap host).dc = policy.localDc
  · rw [if_pos isLocal]
    by_cases same : dc = policy.localDc
    · rw [if_pos same, if_pos same, if_pos (same.trans isLocal.symm)]
    · rw [if_neg same, if_neg same, if_neg fun equal => same (equal.trans isLocal)]
  · rw [if_neg isLocal]
    by_cases same : dc = policy.localDc
    · rw [if_pos same, if_pos same, if_neg fun equal => isLocal (equal.symm.trans same)]
    · rw [if_neg same, if_neg same, PerDCHostMap.getHosts_removeHostFromDc]
      by_cases here : dc = (heap host).dc
      · rw [if_pos here, if_pos here, here]
      · rw [if_neg here, if_neg here]

theorem mem_liveHostsOf_onAdd (policy : DCAwarePolicy) (heap : Heap) (host : HostPtr) :
    host ∈ (policy.onAdd heap host).liveHostsOf (heap host).dc := by
  rw [onAdd_eq]
  split
  next isLocal =>
    rw [liveHostsOf, if_pos isLocal]
    exact mem_append_right _ (mem_singleton.mpr rfl)
  next isRemote =>
    have known : policy.localDc ≠ "" := by
      intro unset
      exact isRemote (if_pos unset).symm
    have other : (heap host).dc ≠ policy.localDc := by
      rwa [seenDc, if_neg known] at isRemote
    rw [liveHostsOf, if_neg other, PerDCHostMap.getHosts_addHostToDc, if_pos rfl]
    exact mem_addHost_self _ host

theorem liveHostsOf_localDc (policy : DCAwarePolicy) :
    policy.liveHostsOf policy.localDc = policy.localDcLiveHosts :=
  if_pos rfl

/-! ## Filing -/

/-- The local datacenter is known and all hosts in the lists satisfy a relation with their
datacenters; each list holds an address once. -/
structure Files (filed : HostPtr → String → Prop) (policy : DCAwarePolicy) : Prop where
  known : policy.localDc ≠ ""
  noLocal : policy.perRemoteDcLiveHosts.getHosts policy.localDc = []
  listed : ∀ dc, ∀ host ∈ policy.liveHostsOf dc, filed host dc
  distinct : ∀ dc, Distinct (policy.liveHostsOf dc)

/-- No list holds the address. -/
def Lacks (policy : DCAwarePolicy) (address : Address) : Prop :=
  ∀ dc, ∀ host ∈ policy.liveHostsOf dc, host.address ≠ address

variable {filed : HostPtr → String → Prop}

theorem Files.imp {other : HostPtr → String → Prop} (files : policy.Files filed)
    (implies : ∀ dc, ∀ host ∈ policy.liveHostsOf dc, filed host dc → other host dc) :
    policy.Files other :=
  ⟨files.known, files.noLocal,
    fun dc host member => implies dc host member (files.listed dc host member), files.distinct⟩

theorem Files.onRemove (files : policy.Files filed) :
    (policy.onRemove heap host).Files fun other dc =>
      filed other dc ∧ (dc = (heap host).dc → other.address ≠ host.address) := by
  constructor
  case known => rw [onRemove_localDc]; exact files.known
  case noLocal =>
    rw [onRemove_localDc, DCAwarePolicy.onRemove]
    split
    · exact files.noLocal
    next isRemote =>
      rw [PerDCHostMap.getHosts_removeHostFromDc, if_neg (Ne.symm isRemote)]
      exact files.noLocal
  case listed =>
    intro dc other member
    rw [liveHostsOf_onRemove] at member
    split at member
    · exact ⟨files.listed dc other (mem_of_mem_removeHost member),
        fun _ => (files.distinct dc).notMem_removeHost member⟩
    next elsewhere => exact ⟨files.listed dc other member, fun here => absurd here elsewhere⟩
  case distinct =>
    intro dc
    rw [liveHostsOf_onRemove]
    split
    · exact (files.distinct dc).removeHost host
    · exact files.distinct dc

theorem onAdd_localDc (known : policy.localDc ≠ "") :
    (policy.onAdd heap host).localDc = policy.localDc := by
  rw [onAdd_eq, seenDc, if_neg known]
  split <;> rfl

theorem liveHostsOf_onAdd (known : policy.localDc ≠ "") (dc : String) :
    (policy.onAdd heap host).liveHostsOf dc =
      if dc = (heap host).dc then
        if dc = policy.localDc then policy.liveHostsOf dc ++ [host]
        else addHost (policy.liveHostsOf dc) host
      else
        policy.liveHostsOf dc := by
  rw [liveHostsOf, onAdd_localDc known, onAdd_eq, liveHostsOf, seenDc, if_neg known]
  by_cases isLocal : (heap host).dc = policy.localDc
  · rw [if_pos isLocal]
    by_cases same : dc = policy.localDc
    · rw [if_pos same, if_pos (same.trans isLocal.symm), if_pos same, if_pos same]
    · rw [if_neg same, if_neg fun equal => same (equal.trans isLocal), if_neg same]
  · rw [if_neg isLocal]
    by_cases same : dc = policy.localDc
    · rw [if_pos same, if_neg fun equal => isLocal (equal.symm.trans same), if_pos same]
    · rw [if_neg same, PerDCHostMap.getHosts_addHostToDc, if_neg same, if_neg same]
      by_cases here : dc = (heap host).dc
      · rw [if_pos here, if_pos here, here]
      · rw [if_neg here, if_neg here]

/-- A host whose address is in no list can be added. -/
theorem Files.onAdd (files : policy.Files filed) (absent : policy.Lacks host.address) :
    (policy.onAdd heap host).Files fun other dc =>
      filed other dc ∨ other = host ∧ dc = (heap host).dc := by
  constructor
  case known => rw [onAdd_localDc files.known]; exact files.known
  case noLocal =>
    rw [onAdd_localDc files.known, onAdd_eq, seenDc, if_neg files.known]
    split
    · exact files.noLocal
    next isRemote =>
      rw [PerDCHostMap.getHosts_addHostToDc, if_neg (Ne.symm isRemote)]
      exact files.noLocal
  case listed =>
    intro dc other member
    rw [liveHostsOf_onAdd files.known] at member
    split at member
    next here =>
      split at member
      · rcases mem_append.mp member with before | last
        · exact .inl (files.listed dc other before)
        · exact .inr ⟨mem_singleton.mp last, here⟩
      · rcases mem_addHost member with same | before
        · exact .inr ⟨same, here⟩
        · exact .inl (files.listed dc other before)
    · exact .inl (files.listed dc other member)
  case distinct =>
    intro dc
    rw [liveHostsOf_onAdd files.known]
    split
    · split
      · rw [Distinct, map_append]
        refine nodup_append.mpr ⟨files.distinct dc, nodup_singleton _, ?_⟩
        intro address member last isLast equal
        obtain ⟨other, inList, rfl⟩ := mem_map.mp member
        exact absent dc other inList (equal.trans (mem_singleton.mp isLast))
      · exact (files.distinct dc).addHost host
    · exact files.distinct dc

/-- A host list with distinct addresses can be added to lists that hold none of them. -/
theorem Files.foldl_onAdd (hosts : List HostPtr) (distinct : Distinct hosts)
    {policy : DCAwarePolicy} {filed : HostPtr → String → Prop} (files : policy.Files filed)
    (absent : ∀ host ∈ hosts, policy.Lacks host.address) :
    (hosts.foldl (DCAwarePolicy.onAdd heap) policy).Files fun host dc =>
      filed host dc ∨ host ∈ hosts ∧ dc = (heap host).dc := by
  induction hosts generalizing policy filed with
  | nil => exact files.imp fun dc host _ isFiled => .inl isFiled
  | cons first hosts ih =>
    obtain ⟨notIn, rest⟩ := nodup_cons.mp distinct
    obtain ⟨firstAbsent, othersAbsent⟩ := forall_mem_cons.mp absent
    refine (ih rest (files.onAdd firstAbsent) ?_).imp ?_
    · intro host member dc other listed same
      rw [liveHostsOf_onAdd files.known] at listed
      have cases : other = first ∨ other ∈ policy.liveHostsOf dc := by
        split at listed
        · split at listed
          · rw [mem_append, mem_singleton] at listed
            exact listed.symm
          · exact mem_addHost listed
        · exact .inr listed
      rcases cases with rfl | before
      · exact notIn (mem_map.mpr ⟨host, member, same.symm⟩)
      · exact othersAbsent host member dc other before same
    · rintro dc host - ((isFiled | ⟨rfl, here⟩) | ⟨member, here⟩)
      · exact .inl isFiled
      · exact .inr ⟨mem_cons_self, here⟩
      · exact .inr ⟨mem_cons_of_mem first member, here⟩

/-- The policy files the hosts it starts with, if the local datacenter is configured or that of
the connected host is known. -/
theorem files_init {localDc : String} {connectedHost : Option HostPtr}
    (known : localDc ≠ "" ∨ ∃ host, connectedHost = some host ∧ (heap host).dc ≠ "")
    (used : Nat) (skips : Bool) {hosts : List HostPtr} (distinct : Distinct hosts)
    (random : Option UInt64) :
    ((DCAwarePolicy.new localDc used skips).init heap connectedHost hosts random).Files
      fun host dc => host ∈ hosts ∧ dc = (heap host).dc := by
  have empty (dc : String) :
      ((DCAwarePolicy.new localDc used skips).noteConnected heap connectedHost).liveHostsOf dc =
        [] := by
    unfold noteConnected
    split
    · split <;> exact ite_self _
    · exact ite_self _
  have start : ((DCAwarePolicy.new localDc used skips).noteConnected heap connectedHost).Files
      fun _ _ => False := by
    refine ⟨?_, ?_, fun dc host listed => ?_, fun dc => ?_⟩
    · rcases known with configured | ⟨host, rfl, named⟩
      · unfold noteConnected
        split
        · rw [if_neg fun unset => configured unset.1]
          exact configured
        · exact configured
      · rw [noteConnected]
        split
        · exact named
        next either => exact fun unset => either ⟨unset, named⟩
    · unfold noteConnected
      split
      · split <;> rfl
      · rfl
    · rw [empty] at listed
      cases listed
    · rw [empty]
      exact nodup_nil
  have absent (host : HostPtr) (_ : host ∈ hosts) :
      ((DCAwarePolicy.new localDc used skips).noteConnected heap connectedHost).Lacks
        host.address := by
    intro dc other listed
    rw [empty] at listed
    cases listed
  have added : (hosts.foldl (DCAwarePolicy.onAdd heap)
      ((DCAwarePolicy.new localDc used skips).noteConnected heap connectedHost)).Files
        fun host dc => False ∨ host ∈ hosts ∧ dc = (heap host).dc :=
    start.foldl_onAdd hosts distinct absent
  exact ⟨added.known, added.noLocal, fun dc host listed =>
    (added.listed dc host listed).resolve_left id, added.distinct⟩

theorem getHosts_of_entry {dc : String} {hosts : List HostPtr}
    (entry : ⟨dc, hosts⟩ ∈ policy.perRemoteDcLiveHosts.entries) :
    policy.perRemoteDcLiveHosts.getHosts dc = hosts := by
  rw [PerDCHostMap.getHosts, AList.mem_lookup_iff.mpr entry, Option.getD_some]

theorem Files.entry_filed (files : policy.Files filed) {dc : String} {hosts : List HostPtr}
    (entry : ⟨dc, hosts⟩ ∈ policy.perRemoteDcLiveHosts.entries) :
    Distinct hosts ∧ ∀ host ∈ hosts, dc ≠ policy.localDc ∧ host ∈ policy.liveHostsOf dc := by
  have stored := getHosts_of_entry entry
  by_cases isLocal : dc = policy.localDc
  · have empty : hosts = [] := by rw [← stored, isLocal, files.noLocal]
    rw [empty]
    exact ⟨nodup_nil, fun host => nofun⟩
  · have here : policy.liveHostsOf dc = hosts := (if_neg isLocal).trans stored
    exact ⟨here ▸ files.distinct dc, fun host member => ⟨isLocal, here.symm ▸ member⟩⟩

theorem Files.mem_liveHosts (files : policy.Files filed) {host : HostPtr}
    (member : host ∈ policy.liveHosts) : ∃ dc, host ∈ policy.liveHostsOf dc := by
  rcases mem_append.mp member with inLocal | inRemote
  · exact ⟨policy.localDc, policy.liveHostsOf_localDc.symm ▸ inLocal⟩
  · obtain ⟨⟨dc, hosts⟩, entry, inside⟩ := mem_flatMap.mp inRemote
    exact ⟨dc, ((files.entry_filed entry).2 host inside).2⟩

/-- The lists together hold each address once, if hosts with one address are filed under one
datacenter. -/
theorem Files.liveHosts_distinct (files : policy.Files filed)
    (sameDc : ∀ host other dc otherDc, filed host dc → filed other otherDc →
      host.address = other.address → dc = otherDc) : Distinct policy.liveHosts := by
  have localList := policy.liveHostsOf_localDc
  rw [Distinct, liveHosts, map_append, map_flatMap]
  refine nodup_append.mpr ⟨localList ▸ files.distinct policy.localDc, ?_, ?_⟩
  · refine nodup_flatMap.mpr ⟨fun _ entry => (files.entry_filed entry).1, ?_⟩
    refine policy.perRemoteDcLiveHosts.nodupKeys.pairwise_ne.imp_of_mem ?_
    rintro ⟨dc, hosts⟩ ⟨otherDc, others⟩ entry otherEntry different address here there
    obtain ⟨host, inHosts, rfl⟩ := mem_map.mp here
    obtain ⟨other, inOthers, same⟩ := mem_map.mp there
    obtain ⟨-, listed⟩ := (files.entry_filed entry).2 host inHosts
    obtain ⟨-, otherListed⟩ := (files.entry_filed otherEntry).2 other inOthers
    exact different (sameDc host other dc otherDc (files.listed dc host listed)
      (files.listed otherDc other otherListed) same.symm)
  · rintro address inLocal other inRemote rfl
    obtain ⟨host, member, rfl⟩ := mem_map.mp inLocal
    obtain ⟨⟨dc, hosts⟩, entry, inside⟩ := mem_flatMap.mp inRemote
    obtain ⟨remote, inHosts, same⟩ := mem_map.mp inside
    obtain ⟨notLocal, listed⟩ := (files.entry_filed entry).2 remote inHosts
    exact notLocal (sameDc remote host dc policy.localDc (files.listed dc remote listed)
      (files.listed _ host (localList ▸ member)) same)

end DCAwarePolicy

/-- The live list of a datacenter, if the policy is the datacenter-aware one. -/
def Policy.liveHostsOf (dc : String) : Policy → List HostPtr
  | .dcAware policy => policy.liveHostsOf dc
  | _ => []

end DseDriver.LoadBalancing
