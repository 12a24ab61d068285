import Warphold.Fleet.Provision

/-!
# What a failed enrollment leaves

The unwinding deletes the agent's row if nothing refers to it, and with the row go its gateway keys;
without the row nobody can make keys of the agent, or rows that refer to it.
-/

namespace Warphold.Fleet

open List Subset

namespace Provisioning

def agent : Provisioning → Str
  | created id _ | writer id _ | keyed id | minted id _ _ | rollback id _ _ | provisioned id _ _
  | sealing id _ _ | revoking id _ _ | unwinding id _ | removing id _ => id

def kind : Provisioning → TargetKind
  | created _ kind | minted _ kind _ | rollback _ kind _ | provisioned _ kind _ | sealing _ kind _
  | revoking _ kind _ | unwinding _ kind | removing _ kind => kind
  | writer _ _ => .b2
  | keyed _ => .hostedCloud

/-- The B2 keys that will be taken back. -/
def keys : Provisioning → List Str
  | minted _ _ keys | rollback _ _ keys | provisioned _ _ keys | sealing _ _ keys
  | revoking _ _ keys => keys
  | writer _ key => [key]
  | _ => []

end Provisioning

namespace Provisions

variable {s s' : Provisions} {i : ℕ} {p : Provisioning} {id : Str}

structure Gone (s : Provisions) (id : Str) : Prop where
  agents : ∀ a ∈ s.agents, a.1 ≠ id
  deviceKeys : ∀ k ∈ s.deviceKeys, k.agentID ≠ id
  cache : ∀ e ∈ s.cache, e.2 ≠ id
  looking : ∀ e ∈ s.looking, e.2 ≠ id

/-- Nothing is left of the agent. -/
structure Clean (s : Provisions) (id : Str) : Prop where
  row : s.hasAgent id = false
  key : ∀ accessKeyID, s.accepts accessKeyID id = false
  b2Keys : ∀ k ∈ s.b2Keys, k.2 ≠ id
  dir : id ∉ s.dirs

/-- The deletion finds no row that refers to the agent, and no key of it in the cache or on the way
there; it and the removal of the directory succeed. -/
def Safe (s : Provisions) : ProvisionAction → Prop
  | .deleteAgent i ok =>
    match s.enrolling i with
    | some (.unwinding id _) => ok = true ∧ (∀ r ∈ s.refs, r.2 ≠ id) ∧ (∀ e ∈ s.cache, e.2 ≠ id)
      ∧ ∀ e ∈ s.looking, e.2 ≠ id
    | _ => True
  | .removeRepository _ ok => ok = true
  | _ => True

instance (s : Provisions) (a : ProvisionAction) : Decidable (s.Safe a) := by
  unfold Safe
  split
  · split <;> infer_instance
  · infer_instance
  · infer_instance

structure Initial (s : Provisions) : Prop where
  agents : ∀ a ∈ s.agents, a.1 ∈ s.used
  b2Keys : ∀ k ∈ s.b2Keys, k.2 ∈ s.used
  dirs : ∀ d ∈ s.dirs, d ∈ s.used
  enrolling : ∀ i, s.enrolling i = none
  failed : s.failed = []

structure Inv (s : Provisions) : Prop where
  agents : ∀ a ∈ s.agents, a.1 ∈ s.used
  b2Used : ∀ k ∈ s.b2Keys, k.2 ∈ s.used
  dirsUsed : ∀ d ∈ s.dirs, d ∈ s.used
  used : ∀ i p, s.enrolling i = some p → p.agent ∈ s.used
  distinct : ∀ i j p q, s.enrolling i = some p → s.enrolling j = some q → p.agent = q.agent → i = j
  b2Keys : ∀ i p, s.enrolling i = some p → ∀ k ∈ s.b2Keys, k.2 = p.agent → k.1 ∈ p.keys
  dirs : ∀ i p, s.enrolling i = some p → p.agent ∈ s.dirs → p.kind = .hostedDisk
  removing : ∀ i id kind, s.enrolling i = some (.removing id kind) → s.Gone id
  failed : ∀ id ∈ s.failed, id ∈ s.used ∧ s.Gone id ∧ (∀ k ∈ s.b2Keys, k.2 ≠ id) ∧ id ∉ s.dirs
    ∧ ∀ i p, s.enrolling i = some p → p.agent ≠ id

lemma Initial.inv (h : Initial s) : Inv s where
  agents := h.agents
  b2Used := h.b2Keys
  dirsUsed := h.dirs
  used := fun i p hp => by simp [h.enrolling] at hp
  distinct := fun i j p q hp => by simp [h.enrolling] at hp
  b2Keys := fun i p hp => by simp [h.enrolling] at hp
  dirs := fun i p hp => by simp [h.enrolling] at hp
  removing := fun i id kind hp => by simp [h.enrolling] at hp
  failed := by simp [h.failed]

/-- A request goes on: all it does to the tables is for its own agent. -/
structure Moved (s s' : Provisions) (i : ℕ) (p p' : Provisioning) : Prop where
  was : s.enrolling i = some p
  now : s'.enrolling = Function.update s.enrolling i (some p')
  agent : p'.agent = p.agent
  kind : p'.kind = p.kind
  used : s'.used = s.used
  failed : s'.failed = s.failed
  agents : ∀ a ∈ s'.agents, ∃ a₀ ∈ s.agents, a₀.1 = a.1
  gone : ∀ id, s.Gone id → s'.Gone id
  b2Own : ∀ k ∈ s'.b2Keys, k.2 = p.agent → (k ∈ s.b2Keys → k.1 ∈ p.keys) → k.1 ∈ p'.keys
  b2Other : ∀ k ∈ s'.b2Keys, k.2 ≠ p.agent → k ∈ s.b2Keys
  dirs : ∀ d ∈ s'.dirs, d ∈ s.dirs ∨ (d = p.agent ∧ p.kind = .hostedDisk)
  removing : ∀ id kind, p' = .removing id kind → s'.Gone id

lemma Moved.go (p' : Provisioning) (hwas : s.enrolling i = some p) (hagent : p'.agent = p.agent)
    (hkind : p'.kind = p.kind) (hkeys : p.keys ⊆ p'.keys)
    (hrem : ∀ id kind, p' ≠ .removing id kind) : Moved s (s.go i p') i p p' where
  was := hwas
  now := rfl
  agent := hagent
  kind := hkind
  used := rfl
  failed := rfl
  agents := fun a ha => ⟨a, ha, rfl⟩
  gone := fun _ h => { h with }
  b2Own := fun _ hk _ hin => hkeys (hin hk)
  b2Other := fun _ hk _ => hk
  dirs := fun _ hd => .inl hd
  removing := fun id kind h => absurd h (hrem id kind)

lemma Inv.moved {p' : Provisioning} (h : Inv s) (hm : Moved s s' i p p') : Inv s' := by
  have hcases : ∀ j q, s'.enrolling j = some q →
      (j = i ∧ q = p') ∨ (j ≠ i ∧ s.enrolling j = some q) := fun j q hq => by
    rw [hm.now] at hq
    exact (Runs.update_eq_some hq).imp_left fun hj => ⟨hj.1, (Option.some.inj hj.2).symm⟩
  have hagent : ∀ j q, s'.enrolling j = some q → ∃ q₀, s.enrolling j = some q₀ ∧ q₀.agent = q.agent := by
    intro j q hq
    rcases hcases j q hq with ⟨rfl, rfl⟩ | ⟨-, hold⟩
    · exact ⟨p, hm.was, hm.agent.symm⟩
    · exact ⟨q, hold, rfl⟩
  have hpu := h.used i p hm.was
  refine ⟨fun a ha => ?_, fun k hk => ?_, fun d hd => ?_, fun j q hq => ?_,
    fun j j' q q' hq hq' heq => ?_, fun j q hq k hk hown => ?_, fun j q hq hd => ?_,
    fun j id kind hq => ?_, fun id hid => ?_⟩
  · obtain ⟨a₀, ha₀, heq⟩ := hm.agents a ha
    rw [hm.used, ← heq]
    exact h.agents a₀ ha₀
  · rw [hm.used]
    by_cases hown : k.2 = p.agent
    · exact hown ▸ hpu
    · exact h.b2Used k (hm.b2Other k hk hown)
  · rw [hm.used]
    rcases hm.dirs d hd with hold | ⟨rfl, -⟩
    · exact h.dirsUsed d hold
    · exact hpu
  · obtain ⟨q₀, hq₀, heq⟩ := hagent j q hq
    rw [hm.used, ← heq]
    exact h.used j q₀ hq₀
  · obtain ⟨q₀, hq₀, heq₀⟩ := hagent j q hq
    obtain ⟨q₁, hq₁, heq₁⟩ := hagent j' q' hq'
    exact h.distinct j j' q₀ q₁ hq₀ hq₁ (by rw [heq₀, heq₁, heq])
  · rcases hcases j q hq with ⟨rfl, rfl⟩ | ⟨hne, hold⟩
    · rw [hm.agent] at hown
      exact hm.b2Own k hk hown fun hin => h.b2Keys j p hm.was k hin hown
    · refine h.b2Keys j q hold k (hm.b2Other k hk fun hp => ?_) hown
      exact hne (h.distinct j i q p hold hm.was (hown.symm.trans hp))
  · rcases hcases j q hq with ⟨rfl, rfl⟩ | ⟨hne, hold⟩
    · rw [hm.agent] at hd
      rw [hm.kind]
      rcases hm.dirs _ hd with hold | ⟨-, hkind⟩
      · exact h.dirs j p hm.was hold
      · exact hkind
    · rcases hm.dirs _ hd with hin | ⟨heq, -⟩
      · exact h.dirs j q hold hin
      · exact absurd (h.distinct j i q p hold hm.was heq) hne
  · rcases hcases j _ hq with ⟨-, heq⟩ | ⟨-, hold⟩
    · exact hm.removing id kind heq.symm
    · exact hm.gone id (h.removing j id kind hold)
  · rw [hm.failed] at hid
    obtain ⟨hused, hgone, hb2, hdir, hreq⟩ := h.failed id hid
    have hne : p.agent ≠ id := hreq i p hm.was
    refine ⟨hm.used ▸ hused, hm.gone id hgone, fun k hk heq => ?_, fun hd => ?_, fun j q hq => ?_⟩
    · exact hb2 k (hm.b2Other k hk fun hp => hne (hp.symm.trans heq)) heq
    · rcases hm.dirs id hd with hold | ⟨heq, -⟩
      · exact hdir hold
      · exact hne heq.symm
    · obtain ⟨q₀, hq₀, heq⟩ := hagent j q hq
      exact heq ▸ hreq j q₀ hq₀

lemma Gone.disableDeviceKeys (h : s.Gone id) (id' : Str) : (s.disableDeviceKeys id').Gone id := by
  refine ⟨h.agents, fun k hk => ?_, h.cache, h.looking⟩
  obtain ⟨k₀, hk₀, rfl⟩ := mem_map.1 hk
  split_ifs <;> exact h.deviceKeys k₀ hk₀

lemma Gone.insertDeviceKey (h : s.Gone id) {accessKeyID id' : Str}
    (hins : s.canInsertKey accessKeyID id' = true) : (s.insertDeviceKey accessKeyID id').Gone id := by
  refine ⟨h.agents, forall_mem_cons.2 ⟨?_, h.deviceKeys⟩, h.cache, h.looking⟩
  rintro rfl
  obtain ⟨a, ha, heq⟩ := any_eq_true.1 (Bool.and_eq_true_iff.1 hins).1
  exact h.agents a ha (of_decide_eq_true heq)

lemma Gone.setBundle (h : s.Gone id) (id' : Str) : (s.setBundle id').Gone id := by
  refine ⟨fun a ha => ?_, h.deviceKeys, h.cache, h.looking⟩
  obtain ⟨a₀, ha₀, rfl⟩ := mem_map.1 ha
  split_ifs <;> exact h.agents a₀ ha₀

lemma removeDir_eq (s : Provisions) (kind : TargetKind) (id : Str) :
    s.removeDir kind id = { s with dirs := (s.removeDir kind id).dirs }
      ∧ (∀ d ∈ (s.removeDir kind id).dirs, d ∈ s.dirs)
      ∧ (kind = .hostedDisk → id ∉ (s.removeDir kind id).dirs) := by
  unfold removeDir
  split_ifs with hk
  · exact ⟨rfl, fun d hd => mem_of_mem_filter hd, fun _ hd => by simp at hd⟩
  · exact ⟨rfl, fun _ hd => hd, fun h => absurd h hk⟩

lemma Moved.device (p' : Provisioning) (hwas : s.enrolling i = some p) (hagent : p'.agent = p.agent)
    (hkind : p'.kind = p.kind) (hkeys : p.keys ⊆ p'.keys) (hrem : ∀ id kind, p' ≠ .removing id kind)
    {accessKeyID id' : Str} (hins : s.canInsertKey accessKeyID id' = true) :
    Moved s ((s.insertDeviceKey accessKeyID id').go i p') i p p' := by
  refine { Moved.go p' hwas hagent hkind hkeys hrem with
    now := rfl, removing := fun id kind h => absurd h (hrem id kind), gone := fun id h => ?_ }
  obtain ⟨h₁, h₂, h₃, h₄⟩ := h.insertDeviceKey hins
  exact ⟨h₁, h₂, h₃, h₄⟩

lemma Moved.b2Key (p' : Provisioning) (hwas : s.enrolling i = some p) (hagent : p'.agent = p.agent)
    (hkind : p'.kind = p.kind) (hkeys : p.keys ⊆ p'.keys) (hrem : ∀ id kind, p' ≠ .removing id kind)
    {key : Str} (hkey : key ∈ p'.keys) :
    Moved s ({ s with b2Keys := (key, p.agent) :: s.b2Keys }.go i p') i p p' := by
  refine { Moved.go p' hwas hagent hkind hkeys hrem with
    now := rfl, removing := fun id kind h => absurd h (hrem id kind)
    gone := fun _ h => { h with }
    b2Own := fun k hk _ hin => ?_, b2Other := fun k hk hne => ?_ }
  · rcases mem_cons.1 hk with rfl | hold
    · exact hkey
    · exact hkeys (hin hold)
  · rcases mem_cons.1 hk with rfl | hold
    · exact absurd rfl hne
    · exact hold

lemma Moved.deleteB2Keys (p' : Provisioning) (hwas : s.enrolling i = some p) (hagent : p'.agent = p.agent)
    (hkind : p'.kind = p.kind) (hrem : ∀ id kind, p' ≠ .removing id kind) :
    Moved s ((s.deleteB2Keys p.keys).go i p') i p p' := by
  refine ⟨hwas, rfl, hagent, hkind, rfl, rfl, fun a ha => ⟨a, ha, rfl⟩, fun id h =>
    { h with }, fun k hk hown hin => ?_,
    fun k hk _ => mem_of_mem_filter hk, fun d hd => .inl hd,
    fun id kind h => absurd h (hrem id kind)⟩
  obtain ⟨hmem, hnot⟩ := mem_filter.1 hk
  simp only [Bool.not_eq_true', contains_eq_mem, decide_eq_false_iff_not] at hnot
  exact absurd (hin hmem) hnot

structure Calm (s s' : Provisions) : Prop where
  enrolling : s'.enrolling = s.enrolling
  used : s'.used = s.used
  failed : s'.failed = s.failed
  agents : ∀ a ∈ s'.agents, ∃ a₀ ∈ s.agents, a₀.1 = a.1
  gone : ∀ id, s.Gone id → s'.Gone id
  b2Keys : ∀ k ∈ s'.b2Keys, k ∈ s.b2Keys
  dirs : ∀ d ∈ s'.dirs, d ∈ s.dirs

lemma Calm.refl (s : Provisions) : Calm s s :=
  ⟨rfl, rfl, rfl, fun a ha => ⟨a, ha, rfl⟩, fun _ h => h, fun _ h => h, fun _ h => h⟩

lemma Calm.trans {s₁ s₂ s₃ : Provisions} (h : Calm s₁ s₂) (h' : Calm s₂ s₃) : Calm s₁ s₃ := by
  refine ⟨h'.enrolling.trans h.enrolling, h'.used.trans h.used, h'.failed.trans h.failed,
    fun a ha => ?_, fun id hg => h'.gone id (h.gone id hg), fun k hk => h.b2Keys k (h'.b2Keys k hk),
    fun d hd => h.dirs d (h'.dirs d hd)⟩
  obtain ⟨a₁, ha₁, heq₁⟩ := h'.agents a ha
  obtain ⟨a₀, ha₀, heq₀⟩ := h.agents a₁ ha₁
  exact ⟨a₀, ha₀, heq₀.trans heq₁⟩

lemma Calm.disableDeviceKeys (s : Provisions) (id : Str) : Calm s (s.disableDeviceKeys id) :=
  { Calm.refl s with gone := fun _ h => h.disableDeviceKeys id }

lemma Calm.setBundle (s : Provisions) (id : Str) : Calm s (s.setBundle id) := by
  refine { Calm.refl s with gone := fun _ h => h.setBundle id, agents := fun a ha => ?_ }
  obtain ⟨a₀, ha₀, rfl⟩ := mem_map.1 ha
  refine ⟨a₀, ha₀, ?_⟩
  split_ifs <;> rfl

lemma Calm.removeDir (s : Provisions) (kind : TargetKind) (id : Str) :
    Calm s (s.removeDir kind id) := by
  unfold Provisions.removeDir
  split_ifs
  · exact { Calm.refl s with
      gone := fun _ h => { h with }
      dirs := fun _ hd => mem_of_mem_filter hd }
  · exact Calm.refl s

lemma Calm.go (h : Calm s s') (i : ℕ) (p : Provisioning) : Calm (s.go i p) (s'.go i p) := by
  refine ⟨?_, h.used, h.failed, h.agents, fun id hg => ?_, h.b2Keys, h.dirs⟩
  · simp only [Provisions.go, h.enrolling]
  · obtain ⟨h₁, h₂, h₃, h₄⟩ := h.gone id { hg with }
    exact ⟨h₁, h₂, h₃, h₄⟩

lemma Inv.calm (h : Inv s) (hc : Calm s s') : Inv s' := by
  refine ⟨fun a ha => ?_, fun k hk => hc.used ▸ h.b2Used k (hc.b2Keys k hk),
    fun d hd => hc.used ▸ h.dirsUsed d (hc.dirs d hd), fun i p hp => ?_, fun i j p q hp hq => ?_,
    fun i p hp k hk => ?_, fun i p hp hd => ?_, fun i id kind hp => ?_, fun id hid => ?_⟩
  · obtain ⟨a₀, ha₀, heq⟩ := hc.agents a ha
    rw [hc.used, ← heq]
    exact h.agents a₀ ha₀
  · rw [hc.enrolling] at hp
    rw [hc.used]
    exact h.used i p hp
  · rw [hc.enrolling] at hp hq
    exact h.distinct i j p q hp hq
  · rw [hc.enrolling] at hp
    exact h.b2Keys i p hp k (hc.b2Keys k hk)
  · rw [hc.enrolling] at hp
    exact h.dirs i p hp (hc.dirs _ hd)
  · rw [hc.enrolling] at hp
    exact hc.gone id (h.removing i id kind hp)
  · rw [hc.failed] at hid
    obtain ⟨hused, hgone, hb2, hdir, hreq⟩ := h.failed id hid
    exact ⟨hc.used ▸ hused, hc.gone id hgone, fun k hk => hb2 k (hc.b2Keys k hk),
      fun hd => hdir (hc.dirs id hd), fun i p hp => hreq i p (hc.enrolling ▸ hp)⟩

lemma Inv.leave (h : Inv s) (i : ℕ) :
    Inv { s with enrolling := Function.update s.enrolling i none } := by
  have hold : ∀ {j q}, Function.update s.enrolling i none j = some q → s.enrolling j = some q :=
    fun hq => by
      rcases Runs.update_eq_some hq with ⟨-, hnone⟩ | ⟨-, hold⟩
      · cases hnone
      · exact hold
  refine ⟨h.agents, h.b2Used, h.dirsUsed, fun j q hq => h.used j q (hold hq),
    fun j j' q q' hq hq' => h.distinct j j' q q' (hold hq) (hold hq'),
    fun j q hq => h.b2Keys j q (hold hq), fun j q hq => h.dirs j q (hold hq),
    fun j id kind hq => ?_, fun id hid => ?_⟩
  · obtain ⟨h₁, h₂, h₃, h₄⟩ := h.removing j id kind (hold hq)
    exact ⟨h₁, h₂, h₃, h₄⟩
  · obtain ⟨hused, hgone, hb2, hdir, hreq⟩ := h.failed id hid
    exact ⟨hused, { hgone with }, hb2, hdir,
      fun j q hq => hreq j q (hold hq)⟩

variable {a : ProvisionAction}

lemma Inv.stepMint (h : Inv s) (hs : stepMint s a = some s') : Inv s' := by
  cases a <;> simp only [Provisions.stepMint, reduceCtorEq] at hs
  case createAgent i id kind =>
    split_ifs at hs with hguard
    cases hs
    rw [not_or, not_not] at hguard
    obtain ⟨hnone, hfresh⟩ := hguard
    have hcases : ∀ j q, Function.update s.enrolling i (some (.created id kind)) j = some q →
        (j = i ∧ q = .created id kind) ∨ (j ≠ i ∧ s.enrolling j = some q) := fun j q hq =>
      (Runs.update_eq_some hq).imp_left fun hj => ⟨hj.1, (Option.some.inj hj.2).symm⟩
    refine ⟨?_, fun k hk => mem_cons_of_mem _ (h.b2Used k hk),
      fun d hd => mem_cons_of_mem _ (h.dirsUsed d hd), fun j q hq => ?_,
      fun j j' q q' hq hq' heq => ?_, fun j q hq k hk hown => ?_, fun j q hq hd => ?_,
      fun j id' kind' hq => ?_, fun id' hid' => ?_⟩
    · exact forall_mem_cons.2 ⟨mem_cons_self, fun a ha =>
        mem_cons_of_mem _ (h.agents a ha)⟩
    · rcases hcases j q hq with ⟨-, rfl⟩ | ⟨-, hold⟩
      · exact mem_cons_self
      · exact mem_cons_of_mem _ (h.used j q hold)
    · rcases hcases j q hq with ⟨rfl, rfl⟩ | ⟨-, hold⟩ <;>
        rcases hcases j' q' hq' with ⟨rfl, rfl⟩ | ⟨-, hold'⟩
      · rfl
      · have hu := h.used j' q' hold'
        rw [← heq] at hu
        exact absurd hu hfresh
      · have hu := h.used j q hold
        rw [heq] at hu
        exact absurd hu hfresh
      · exact h.distinct j j' q q' hold hold' heq
    · rcases hcases j q hq with ⟨-, rfl⟩ | ⟨-, hold⟩
      · have hu := h.b2Used k hk
        rw [hown] at hu
        exact absurd hu hfresh
      · exact h.b2Keys j q hold k hk hown
    · rcases hcases j q hq with ⟨-, rfl⟩ | ⟨-, hold⟩
      · exact absurd (h.dirsUsed _ hd) hfresh
      · exact h.dirs j q hold hd
    · rcases hcases j _ hq with ⟨-, heq⟩ | ⟨-, hold⟩
      · cases heq
      · have hgone := h.removing j id' kind' hold
        refine ⟨forall_mem_cons.2 ⟨?_, hgone.agents⟩, hgone.deviceKeys, hgone.cache,
          hgone.looking⟩
        rintro rfl
        exact hfresh (h.used j _ hold)
    · obtain ⟨hused, hgone, hb2, hdir, hreq⟩ := h.failed id' hid'
      have hne : id ≠ id' := fun heq => hfresh (heq ▸ hused)
      refine ⟨mem_cons_of_mem _ hused, ⟨forall_mem_cons.2 ⟨hne, hgone.agents⟩,
        hgone.deviceKeys, hgone.cache, hgone.looking⟩, hb2, hdir, fun j q hq => ?_⟩
      rcases hcases j q hq with ⟨-, rfl⟩ | ⟨-, hold⟩
      · exact hne
      · exact hreq j q hold
  case makeDir i ok =>
    split at hs <;> cases hs
    next id hp =>
    cases ok
    · exact h.moved (.go (.unwinding id .filesystem) hp rfl rfl (refl _) nofun)
    · exact h.moved (.go (.minted id .filesystem []) hp rfl rfl (refl _) nofun)
  case createWriter i key =>
    split at hs
    · next id hp =>
      cases key with
      | none =>
        cases hs
        exact h.moved (.go (.unwinding id .b2) hp rfl rfl (refl _) nofun)
      | some w =>
        cases hs
        exact h.moved (.b2Key (.writer id w) hp rfl rfl (nil_subset _) nofun
          mem_cons_self)
    · cases hs
  case createReader i key =>
    split at hs
    · next id w hp =>
      cases key with
      | none =>
        cases hs
        exact h.moved (.deleteB2Keys (.unwinding id .b2) hp rfl rfl nofun)
      | some r =>
        cases hs
        exact h.moved (.b2Key (.minted id .b2 [w, r]) hp rfl rfl (by simp [Provisioning.keys]) nofun
          (by simp [Provisioning.keys]))
    · cases hs
  case createDeviceKey i accessKeyID stmt =>
    split at hs
    · next id kind hp =>
      by_cases hkind : kind.hosted = true
      swap
      · simp [hkind] at hs
      by_cases hins : s.canInsertKey accessKeyID id = true
      swap
      · simp only [hkind, hins, Bool.not_true, Bool.not_false, Bool.false_eq_true, ↓reduceIte,
          Option.some.injEq] at hs
        exact hs ▸ h.moved (.go (.unwinding id kind) hp rfl rfl (refl _) nofun)
      simp only [hkind, hins, Bool.not_true, Bool.false_eq_true, ↓reduceIte, Option.some.injEq] at hs
      subst hs
      cases stmt with
      | ok =>
        by_cases hcloud : kind = .hostedCloud
        · simp only [hcloud, ↓reduceIte]
          exact h.moved (.device (.keyed id) hp rfl hcloud.symm (refl _) nofun hins)
        · simp only [hcloud, ↓reduceIte]
          exact h.moved (.device (.minted id kind []) hp rfl rfl (refl _) nofun hins)
      | failed => exact h.moved (.go (.unwinding id kind) hp rfl rfl (refl _) nofun)
      | lost =>
        exact h.moved (.device (.unwinding id kind) hp rfl rfl (refl _) nofun hins)
    · cases hs
  case openBackend i ok =>
    split at hs <;> cases hs
    next id hp =>
    cases ok
    · exact h.moved (.go (.unwinding id .hostedCloud) hp rfl rfl (refl _) nofun)
    · exact h.moved (.go (.minted id .hostedCloud []) hp rfl rfl (refl _) nofun)

lemma Inv.stepStore (h : Inv s) (hs : stepStore s a = some s') : Inv s' := by
  cases a <;> simp only [Provisions.stepStore, reduceCtorEq] at hs
  case initRepository i ok =>
    split at hs <;> cases hs
    next id kind keys hp =>
    have hmove : ∀ p', p'.agent = id → p'.kind = kind → keys ⊆ p'.keys →
        (∀ id kind, p' ≠ .removing id kind) →
        Inv ((if kind = .hostedDisk then { s with dirs := id :: s.dirs } else s).go i p') := by
      intro p' hagent hkind hkeys hrem
      split_ifs with hdisk
      · refine h.moved { Moved.go p' hp hagent hkind hkeys hrem with
          now := rfl, removing := fun id kind h => absurd h (hrem id kind)
          gone := fun _ h => { h with }, dirs := fun d hd => ?_ }
        rcases mem_cons.1 hd with rfl | hold
        · exact .inr ⟨rfl, hdisk⟩
        · exact .inl hold
      · exact h.moved (.go p' hp hagent hkind hkeys hrem)
    cases ok
    · exact hmove (.rollback id kind keys) rfl rfl (refl _) nofun
    · exact hmove (.provisioned id kind keys) rfl rfl (refl _) nofun
  case encodeToken i ok =>
    split at hs <;> cases hs
    next id kind keys hp =>
    cases ok
    · exact h.moved (.go (.rollback id kind keys) hp rfl rfl (refl _) nofun)
    · exact h.moved (.go (.sealing id kind keys) hp rfl rfl (refl _) nofun)
  case rollback i disabled removed =>
    split at hs <;> cases hs
    next id kind keys hp =>
    have hback : Inv ((s.deleteB2Keys keys).go i (.unwinding id kind)) :=
      h.moved (.deleteB2Keys (.unwinding id kind) hp rfl rfl nofun)
    refine hback.calm (Calm.go ?_ i _)
    split_ifs
    · exact (Calm.disableDeviceKeys _ id).trans (Calm.removeDir _ kind id)
    · exact Calm.removeDir _ kind id
    · exact Calm.disableDeviceKeys _ id
    · exact Calm.refl _
  case sealBundle i ok =>
    split at hs
    · next id kind keys hp =>
      split_ifs at hs
      cases hs
      exact h.moved (.go (.revoking id kind keys) hp rfl rfl (refl _) nofun)
    · cases hs
  case setAgentBundle i stmt =>
    split at hs <;> cases hs
    next id kind keys hp =>
    cases stmt with
    | ok =>
      simp only []
      split_ifs
      · exact (h.calm (Calm.setBundle s id)).leave i
      · exact h.moved (.go (.revoking id kind keys) hp rfl rfl (refl _) nofun)
    | failed => exact h.moved (.go (.revoking id kind keys) hp rfl rfl (refl _) nofun)
    | lost =>
      have hgo := h.moved (.go (.revoking id kind keys) hp rfl rfl (refl _) nofun)
      exact hgo.calm ((Calm.setBundle s id).go i _)

lemma Inv.stepUnwind (h : Inv s) (hsafe : s.Safe a) (hs : stepUnwind s a = some s') : Inv s' := by
  cases a <;> simp only [Provisions.stepUnwind, reduceCtorEq] at hs
  case revokeBundle i =>
    split at hs <;> cases hs
    next id kind keys hp =>
    exact h.moved (.deleteB2Keys (.unwinding id kind) hp rfl rfl (by simp))
  case deleteAgent i ok =>
    split at hs <;> cases hs
    next id kind hp =>
    simp only [Safe, hp] at hsafe
    obtain ⟨rfl, hrefs, hcache, hlooking⟩ := hsafe
    have hnone : ¬ (s.refs.any fun r => r.2 = id) = true := by
      simpa using fun table hr => hrefs (table, id) hr rfl
    rw [if_pos rfl, Provisions.deleteAgent, if_neg hnone]
    refine h.moved (show Moved s _ i (.unwinding id kind) (.removing id kind) from ⟨hp, rfl, rfl,
      rfl, rfl, rfl, fun a ha => ⟨a, mem_of_mem_filter ha, rfl⟩, fun id' hg => ?_,
      fun k hk _ hin => hin hk, fun k hk _ => hk, fun d hd => .inl hd, fun id' kind' heq => ?_⟩)
    · exact ⟨fun a ha => hg.agents a (mem_of_mem_filter ha),
        fun k hk => hg.deviceKeys k (mem_of_mem_filter hk), hg.cache, hg.looking⟩
    · cases heq
      exact ⟨fun a ha => of_decide_eq_true (mem_filter.1 ha).2,
        fun k hk => of_decide_eq_true (mem_filter.1 hk).2, hcache, hlooking⟩
  case removeRepository i ok =>
    split at hs <;> cases hs
    next id kind hp =>
    obtain rfl : ok = true := hsafe
    rw [if_pos rfl]
    have hcalm := Calm.removeDir s kind id
    have hinv := h.calm hcalm
    have hp' : (s.removeDir kind id).enrolling i = some (.removing id kind) := by
      rw [hcalm.enrolling, hp]
    have hgone : ∀ {id'}, (s.removeDir kind id).Gone id' →
        ((s.removeDir kind id).fail i id).Gone id' := fun h =>
      { h with }
    have hold : ∀ {j q}, ((s.removeDir kind id).fail i id).enrolling j = some q →
        j ≠ i ∧ (s.removeDir kind id).enrolling j = some q := fun hq => by
      rcases Runs.update_eq_some hq with ⟨-, hnone⟩ | hold
      · cases hnone
      · exact hold
    have hleave := hinv.leave i
    refine { hleave with
      removing := fun j id' kind' hq => hgone (hinv.removing j id' kind' (hold hq).2)
      failed := forall_mem_cons.2 ⟨⟨hinv.used i _ hp', hgone (hinv.removing i id kind hp'),
        ?_, ?_, ?_⟩, fun id' hid' => ?_⟩ }
    · intro k hk heq
      cases hinv.b2Keys i _ hp' k hk heq
    · intro hd
      exact (removeDir_eq s kind id).2.2 (hinv.dirs i _ hp' hd) hd
    · intro j q hq heq
      exact (hold hq).1 (hinv.distinct j i q _ (hold hq).2 hp' heq)
    · obtain ⟨hused, hg, hb2, hdir, hreq⟩ := hinv.failed id' hid'
      exact ⟨hused, hgone hg, hb2, hdir, fun j q hq => hreq j q (hold hq).2⟩

lemma Inv.stepOther (h : Inv s) (hs : stepOther s a = some s') : Inv s' := by
  cases a with
  | addRow table id =>
    simp only [Provisions.stepOther] at hs
    split_ifs at hs
    cases hs
    exact h.calm { Calm.refl s with
      gone := fun _ h => { h with } }
  | mintKit id accessKeyID =>
    simp only [Provisions.stepOther] at hs
    split_ifs at hs with hins
    cases hs
    exact h.calm { Calm.refl s with gone := fun _ h => h.insertDeviceKey hins.2 }
  | disableKeys id =>
    cases hs
    exact h.calm (Calm.disableDeviceKeys s id)
  | lookup accessKeyID =>
    obtain ⟨k, hk, rfl⟩ := Option.map_eq_some_iff.1 hs
    refine h.calm { Calm.refl s with gone := fun _ h => ⟨h.agents, h.deviceKeys, h.cache, ?_⟩ }
    exact forall_mem_cons.2 ⟨h.deviceKeys k (mem_of_find?_eq_some hk), h.looking⟩
  | cacheKey entry =>
    simp only [Provisions.stepOther] at hs
    split_ifs at hs with hmem
    cases hs
    exact h.calm { Calm.refl s with gone := fun _ h => ⟨h.agents, h.deviceKeys,
      forall_mem_cons.2 ⟨h.looking entry hmem, h.cache⟩,
      fun e he => h.looking e (mem_of_mem_erase he)⟩ }
  | forget entry =>
    cases hs
    exact h.calm { Calm.refl s with gone := fun _ h => ⟨h.agents, h.deviceKeys,
      fun e he => h.cache e (mem_of_mem_filter he),
      fun e he => h.looking e (mem_of_mem_erase he)⟩ }
  | _ => cases hs

lemma Inv.step (h : Inv s) (hsafe : s.Safe a) (hs : step s a = some s') : Inv s' := by
  cases a with
  | createAgent | makeDir | createWriter | createReader | createDeviceKey | openBackend =>
    simp only [Provisions.step] at hs
    exact h.stepMint hs
  | initRepository | encodeToken | rollback | sealBundle | setAgentBundle =>
    simp only [Provisions.step] at hs
    exact h.stepStore hs
  | revokeBundle | deleteAgent | removeRepository => exact h.stepUnwind hsafe hs
  | _ =>
    simp only [Provisions.step] at hs
    exact h.stepOther hs

lemma Gone.clean (h : s.Gone id) (hb2 : ∀ k ∈ s.b2Keys, k.2 ≠ id) (hdir : id ∉ s.dirs) :
    s.Clean id := by
  refine ⟨?_, fun accessKeyID => ?_, hb2, hdir⟩
  · simpa [hasAgent] using fun a b ha => h.agents (a, b) ha
  · simp only [accepts, Bool.or_eq_false_iff, any_eq_false, Bool.and_eq_true, not_and,
      decide_eq_true_eq]
    refine ⟨fun e he _ => h.cache e he, ?_⟩
    cases hk : s.deviceKey accessKeyID with
    | none => rfl
    | some k => simpa using h.deviceKeys k (mem_of_find?_eq_some hk)

section Sample

def Sample.start : Provisions := ⟨[], [], [], [], [], [], [], [], fun _ => none, []⟩

lemma Sample.start_initial : Initial start := ⟨nofun, nofun, nofun, fun _ => rfl, rfl⟩

def Sample.mint : List ProvisionAction :=
  [.createAgent 0 [1] .hostedCloud, .createDeviceKey 0 [7] .ok]

def Sample.unwind : List ProvisionAction :=
  [.openBackend 0 false, .deleteAgent 0 true, .removeRepository 0 true]

end Sample

end Provisions

end Warphold.Fleet
