import Warphold.Fleet.Login

/-!
# What a password change ends

A session's row refers to its admin's row, so it goes when the admin does. If a login inserts its
session only while the row it read stands, then the session's version is the row's, and a change
that was stored before has a version no greater.
-/

namespace Warphold.Fleet

open List Nat

lemma lt_nextID {ids : List ℕ} {n : ℕ} (h : n ∈ ids) : n < nextID ids := by
  have hle : ∀ (l : List ℕ) (m : ℕ), m ≤ l.foldl max m ∧ ∀ n ∈ l, n ≤ l.foldl max m := by
    intro l
    induction l with
    | nil => exact fun m => ⟨le_rfl, nofun⟩
    | cons a l ih =>
      intro m
      obtain ⟨h₁, h₂⟩ := ih (max m a)
      refine ⟨(le_max_left m a).trans h₁, fun n hn => ?_⟩
      rcases mem_cons.1 hn with rfl | hn
      · exact (le_max_right m n).trans h₁
      · exact h₂ n hn
  exact lt_succ_of_le ((hle ids 0).2 n h)

def Changing.session : Changing → SessionRow
  | .authorized sess | .loaded sess _ | .verified sess _ | .stored sess _ _ => sess

namespace Logins

variable {P : Passwords} {s s' : Logins}

/-- A login that inserts its session finds the row it read, with the password it verified; a change
that stores its hash finds the row of the account its session logged in to. -/
def Safe (s : Logins) : LoginAction → Prop
  | .loginCreate i _ _ _ =>
    match s.logging i with
    | some (.verified row) => ∀ a ∈ s.admins, a.id = row.id →
      a.account = row.account ∧ a.version = row.version
    | _ => True
  | .changeStore i _ =>
    match s.changing i with
    | some (.verified sess _) => ∀ a ∈ s.admins, a.id = sess.adminID → a.account = sess.account
    | _ => True
  | _ => True

instance (s : Logins) (a : LoginAction) : Decidable (s.Safe a) := by
  unfold Safe
  split
  · split <;> infer_instance
  · split <;> infer_instance
  · infer_instance

/-- Nothing is in flight and nobody is signed in. -/
structure Initial (s : Logins) : Prop where
  sessions : s.sessions = []
  logging : ∀ i, s.logging i = none
  changing : ∀ i, s.changing i = none
  changed : s.changed = []
  ids : ∀ a ∈ s.admins, ∀ b ∈ s.admins, a.id = b.id → a = b
  accounts : ∀ a ∈ s.admins, ∀ b ∈ s.admins, a.account = b.account → a = b
  past : ∀ a ∈ s.admins, a.account < s.clock ∧ a.version < s.clock

/-- The admin the session's login was of is still there, with the row the session refers to. -/
def Owned (s : Logins) (r : SessionRow) : Prop :=
  ∃ a ∈ s.admins, a.id = r.adminID ∧ a.account = r.account

def Held (s : Logins) (r : SessionRow) : Prop :=
  r.account < s.clock ∧ ∀ a ∈ s.admins, a.account = r.account → a.id = r.adminID
    ∧ ∃ r' ∈ s.sessions, r'.id = r.id ∧ r'.serial = r.serial ∧ r'.adminID = r.adminID

structure Inv (s : Logins) : Prop where
  ids : ∀ a ∈ s.admins, ∀ b ∈ s.admins, a.id = b.id → a = b
  accounts : ∀ a ∈ s.admins, ∀ b ∈ s.admins, a.account = b.account → a = b
  past : ∀ a ∈ s.admins, a.account < s.clock ∧ a.version < s.clock
  rows : ∀ r ∈ s.sessions, ∀ r' ∈ s.sessions, r.id = r'.id → r.serial = r'.serial
  owned : ∀ r ∈ s.sessions, s.Owned r
  held : ∀ i c, s.changing i = some c → s.Held c.session
  stored : ∀ i sess account v, s.changing i = some (.stored sess account v) →
    account = sess.account ∧ ∀ a ∈ s.admins, a.account = sess.account → v ≤ a.version
  changes : ∀ ch ∈ s.changed, ch.account < s.clock
    ∧ (∀ a ∈ s.admins, a.account = ch.account → ch.version ≤ a.version)
    ∧ ∀ r ∈ s.sessions, r.revoked = false → r.account = ch.account →
      r.serial = ch.session ∨ ch.version ≤ r.version

lemma Initial.inv (h : Initial s) : Inv s where
  __ := h
  rows := by simp [h.sessions]
  owned := by simp [h.sessions]
  held := fun i c hc => by simp [h.changing] at hc
  stored := fun i sess account v hc => by simp [h.changing] at hc
  changes := by simp [h.changed]

lemma Inv.tick (h : Inv s) : Inv s.tick where
  __ := h
  past := fun a ha => ⟨(h.past a ha).1.trans (lt_succ_self _),
    (h.past a ha).2.trans (lt_succ_self _)⟩
  held := fun i c hc => ⟨(h.held i c hc).1.trans (lt_succ_self _), (h.held i c hc).2⟩
  changes := fun ch hch => ⟨(h.changes ch hch).1.trans (lt_succ_self _), (h.changes ch hch).2⟩

lemma Inv.setLogging (h : Inv s) (i : ℕ) (l : Option LoggingIn) : Inv (s.setLogging i l) :=
  { h with }

lemma Inv.setChanging (h : Inv s) (i : ℕ) {c : Option Changing}
    (hheld : ∀ c' ∈ c, s.Held c'.session)
    (hstored : ∀ sess account v, c = some (.stored sess account v) → account = sess.account
      ∧ ∀ a ∈ s.admins, a.account = sess.account → v ≤ a.version) : Inv (s.setChanging i c) := by
  refine { h with held := fun j c' hc' => ?_, stored := fun j sess account v hc' => ?_ }
  · rcases Runs.update_eq_some hc' with ⟨-, hc⟩ | ⟨-, hold⟩
    · exact hheld c' hc
    · exact h.held j c' hold
  · rcases Runs.update_eq_some hc' with ⟨-, hc⟩ | ⟨-, hold⟩
    · exact hstored sess account v hc
    · exact h.stored j sess account v hold

lemma Inv.setChanging_none (h : Inv s) (i : ℕ) : Inv (s.setChanging i none) :=
  h.setChanging i nofun nofun

lemma Inv.held_of_mem (h : Inv s) {r : SessionRow} (hr : r ∈ s.sessions) : s.Held r := by
  obtain ⟨a, ha, hid, hacc⟩ := h.owned r hr
  refine ⟨hacc ▸ (h.past a ha).1, fun b hb hbacc => ?_⟩
  rw [h.accounts b hb a ha (hbacc.trans hacc.symm)]
  exact ⟨hid, r, hr, rfl, rfl, rfl⟩

lemma Inv.insertAdmin (h : Inv s) {email pwHash : Str} (hs : s.insertAdmin email pwHash = some s') :
    Inv s'.tick := by
  unfold Logins.insertAdmin at hs
  split_ifs at hs
  cases hs
  have hnew : ∀ b ∈ s.admins, b.id ≠ nextID (s.admins.map (·.id)) := fun b hb =>
    (lt_nextID (mem_map_of_mem hb)).ne
  have hacc : ∀ b ∈ s.admins, b.account ≠ s.clock := fun b hb => (h.past b hb).1.ne
  refine ⟨?_, ?_, ?_, h.rows, fun r hr => ?_, fun i c hc => ?_,
    fun i sess account v hc => ⟨(h.stored i sess account v hc).1, fun a ha hacct => ?_⟩,
    fun ch hch => ?_⟩
  · simp only [Logins.tick, forall_mem_cons]
    exact ⟨⟨fun _ => trivial, fun b hb heq => absurd heq.symm (hnew b hb)⟩, fun a ha =>
      ⟨fun heq => absurd heq (hnew a ha), fun b hb => h.ids a ha b hb⟩⟩
  · simp only [Logins.tick, forall_mem_cons]
    exact ⟨⟨fun _ => trivial, fun b hb heq => absurd heq.symm (hacc b hb)⟩, fun a ha =>
      ⟨fun heq => absurd heq (hacc a ha), fun b hb => h.accounts a ha b hb⟩⟩
  · simp only [Logins.tick, forall_mem_cons]
    exact ⟨⟨lt_succ_self _, lt_succ_self _⟩, fun a ha =>
      ⟨(h.past a ha).1.trans (lt_succ_self _), (h.past a ha).2.trans (lt_succ_self _)⟩⟩
  · obtain ⟨a, ha, hid⟩ := h.owned r hr
    exact ⟨a, mem_cons_of_mem _ ha, hid⟩
  · obtain ⟨hlt, hheld⟩ := h.held i c hc
    refine ⟨hlt.trans (lt_succ_self _), fun a ha hacct => ?_⟩
    rcases mem_cons.1 ha with rfl | ha
    · exact absurd hacct hlt.ne'
    · exact hheld a ha hacct
  · rcases mem_cons.1 ha with rfl | ha
    · exact absurd hacct (h.held i _ hc).1.ne'
    · exact (h.stored i sess account v hc).2 a ha hacct
  · obtain ⟨hlt, hver, hrows⟩ := h.changes ch hch
    refine ⟨hlt.trans (lt_succ_self _), fun a ha hacct => ?_, hrows⟩
    rcases mem_cons.1 ha with rfl | ha
    · exact absurd hacct hlt.ne'
    · exact hver a ha hacct

lemma Inv.removeAdmin (h : Inv s) (id : ℕ) : Inv (s.removeAdmin id) := by
  unfold Logins.removeAdmin
  split_ifs
  · have hadm : ∀ {a}, a ∈ s.admins.filter (fun a => a.id ≠ id) → a ∈ s.admins := fun ha =>
      mem_of_mem_filter ha
    have hses : ∀ {r}, r ∈ s.sessions.filter (fun r => r.adminID ≠ id) → r ∈ s.sessions := fun hr =>
      mem_of_mem_filter hr
    refine ⟨fun a ha b hb => h.ids a (hadm ha) b (hadm hb),
      fun a ha b hb => h.accounts a (hadm ha) b (hadm hb), fun a ha => h.past a (hadm ha),
      fun r hr r' hr' => h.rows r (hses hr) r' (hses hr'), fun r hr => ?_, fun i c hc => ?_,
      fun i sess account v hc => ⟨(h.stored i sess account v hc).1,
        fun a ha => (h.stored i sess account v hc).2 a (hadm ha)⟩, fun ch hch => ?_⟩
    · obtain ⟨a, ha, hid, hacc⟩ := h.owned r (hses hr)
      have hne := (mem_filter.1 hr).2
      exact ⟨a, mem_filter.2 ⟨ha, by rwa [hid]⟩, hid, hacc⟩
    · obtain ⟨hlt, hheld⟩ := h.held i c hc
      refine ⟨hlt, fun a ha hacc => ?_⟩
      obtain ⟨hid, r, hr, hrid, hser, hown⟩ := hheld a (hadm ha) hacc
      have hne := (mem_filter.1 ha).2
      exact ⟨hid, r, mem_filter.2 ⟨hr, by rwa [hown, ← hid]⟩, hrid, hser, hown⟩
    · obtain ⟨hlt, hver, hrows⟩ := h.changes ch hch
      exact ⟨hlt, fun a ha => hver a (hadm ha), fun r hr => hrows r (hses hr)⟩
  · exact h

lemma Inv.revokeWhere (h : Inv s) (p : SessionRow → Bool) : Inv (s.revokeWhere p) := by
  have hmap : ∀ r ∈ (s.revokeWhere p).sessions, ∃ r₀ ∈ s.sessions, r₀.id = r.id
      ∧ r₀.serial = r.serial ∧ r₀.adminID = r.adminID ∧ r₀.account = r.account
      ∧ r₀.version = r.version ∧ (r.revoked = false → r₀.revoked = false ∧ p r₀ = false) := by
    intro r hr
    obtain ⟨r₀, hr₀, rfl⟩ := mem_map.1 hr
    refine ⟨r₀, hr₀, ?_⟩
    split_ifs with hp
    · exact ⟨rfl, rfl, rfl, rfl, rfl, nofun⟩
    · exact ⟨rfl, rfl, rfl, rfl, rfl, fun hrev => ⟨hrev, Bool.eq_false_iff.2 hp⟩⟩
  refine ⟨h.ids, h.accounts, h.past, fun r hr r' hr' heq => ?_, fun r hr => ?_, fun i c hc => ?_,
    h.stored, fun ch hch => ?_⟩
  · obtain ⟨r₀, hr₀, hid, hser, -⟩ := hmap r hr
    obtain ⟨r₁, hr₁, hid', hser', -⟩ := hmap r' hr'
    rw [← hser, ← hser']
    exact h.rows r₀ hr₀ r₁ hr₁ (by rw [hid, hid', heq])
  · obtain ⟨r₀, hr₀, -, -, hadm, hacc, -⟩ := hmap r hr
    obtain ⟨a, ha, hid, hacct⟩ := h.owned r₀ hr₀
    exact ⟨a, ha, hid.trans hadm, hacct.trans hacc⟩
  · obtain ⟨hlt, hheld⟩ := h.held i c hc
    refine ⟨hlt, fun a ha hacc => ?_⟩
    obtain ⟨hid, r, hr, hrid, hser, hown⟩ := hheld a ha hacc
    refine ⟨hid, _, mem_map_of_mem hr, ?_⟩
    split_ifs <;> exact ⟨hrid, hser, hown⟩
  · obtain ⟨hlt, hver, hrows⟩ := h.changes ch hch
    refine ⟨hlt, hver, fun r hr hrev hacct => ?_⟩
    obtain ⟨r₀, hr₀, -, hser, -, hacc, hversion, hlive⟩ := hmap r hr
    rw [← hser, ← hversion]
    exact hrows r₀ hr₀ (hlive hrev).1 (hacc.trans hacct)

lemma Inv.insertSession (h : Inv s) {tokenHash : Str} {row : Admin} {expiresAt : ℤ}
    (hs : s.insertSession tokenHash row expiresAt = some s')
    (hsafe : ∀ a ∈ s.admins, a.id = row.id → a.account = row.account ∧ a.version = row.version) :
    Inv s' := by
  unfold Logins.insertSession at hs
  split_ifs at hs with hguard
  cases hs
  simp only [Bool.or_eq_true, Bool.not_eq_true', not_or, Bool.not_eq_false, any_eq_true,
    decide_eq_true_eq] at hguard
  obtain ⟨-, a, ha, hid⟩ := hguard
  obtain ⟨hacc, hver⟩ := hsafe a ha hid
  have hnew : ∀ r ∈ s.sessions, r.id ≠ nextID (s.sessions.map (·.id)) := fun r hr =>
    (lt_nextID (mem_map_of_mem hr)).ne
  refine ⟨h.ids, h.accounts, h.past, ?_, ?_, fun i c hc => ?_, h.stored, fun ch hch => ?_⟩
  · simp only [forall_mem_cons]
    exact ⟨⟨fun _ => trivial, fun r hr heq => absurd heq.symm (hnew r hr)⟩, fun r hr =>
      ⟨fun heq => absurd heq (hnew r hr), fun r' hr' => h.rows r hr r' hr'⟩⟩
  · simp only [forall_mem_cons]
    exact ⟨⟨a, ha, hid, hacc⟩, fun r hr => h.owned r hr⟩
  · obtain ⟨hlt, hheld⟩ := h.held i c hc
    refine ⟨hlt, fun b hb hbacc => ?_⟩
    obtain ⟨hbid, r, hr, hsame⟩ := hheld b hb hbacc
    exact ⟨hbid, r, mem_cons_of_mem _ hr, hsame⟩
  · obtain ⟨hlt, hle, hrows⟩ := h.changes ch hch
    refine ⟨hlt, hle, forall_mem_cons.2 ⟨fun _ hacct => .inr ?_, hrows⟩⟩
    exact (hle a ha (hacc.trans hacct)).trans_eq hver

lemma Inv.updateAdminPassword (h : Inv s) (id : ℕ) (pwHash : Str) :
    Inv (s.updateAdminPassword id pwHash).tick
      ∧ ∀ a ∈ (s.updateAdminPassword id pwHash).admins, a.id = id → a.version = s.clock := by
  have hmap : ∀ a ∈ s.admins.map (fun a => if a.id = id then
      { a with pwHash := pwHash, version := s.clock } else a), ∃ a₀ ∈ s.admins, a₀.id = a.id
      ∧ a₀.account = a.account ∧ (a.version = a₀.version ∨ a.version = s.clock)
      ∧ (a = if a₀.id = id then { a₀ with pwHash := pwHash, version := s.clock } else a₀) := by
    intro a ha
    obtain ⟨a₀, ha₀, rfl⟩ := mem_map.1 ha
    refine ⟨a₀, ha₀, ?_⟩
    split_ifs
    · exact ⟨rfl, rfl, .inr rfl, rfl⟩
    · exact ⟨rfl, rfl, .inl rfl, rfl⟩
  have hle : ∀ {a a₀ : Admin} {v : ℕ}, a₀ ∈ s.admins → (a.version = a₀.version ∨ a.version = s.clock) →
      v ≤ a₀.version → v ≤ a.version := fun ha₀ hver hv => by
    rcases hver with heq | heq
    · exact hv.trans_eq heq.symm
    · exact (hv.trans (h.past _ ha₀).2.le).trans_eq heq.symm
  refine ⟨⟨fun a ha b hb heq => ?_, fun a ha b hb heq => ?_, fun a ha => ?_, h.rows, fun r hr => ?_,
    fun i c hc => ?_, fun i sess account v hc => ⟨(h.stored i sess account v hc).1,
      fun a ha hacc => ?_⟩, fun ch hch => ?_⟩, fun a ha hid => ?_⟩
  · obtain ⟨a₀, ha₀, hid, -, -, rfl⟩ := hmap a ha
    obtain ⟨b₀, hb₀, hid', -, -, rfl⟩ := hmap b hb
    rw [h.ids a₀ ha₀ b₀ hb₀ (by rw [hid, hid', heq])]
  · obtain ⟨a₀, ha₀, -, hacc, -, rfl⟩ := hmap a ha
    obtain ⟨b₀, hb₀, -, hacc', -, rfl⟩ := hmap b hb
    rw [h.accounts a₀ ha₀ b₀ hb₀ (by rw [hacc, hacc', heq])]
  · obtain ⟨a₀, ha₀, -, hacc, hver, -⟩ := hmap a ha
    obtain ⟨h₁, h₂⟩ := h.past a₀ ha₀
    change a.account < s.clock + 1 ∧ a.version < s.clock + 1
    omega
  · obtain ⟨a, ha, hid, hacc⟩ := h.owned r hr
    refine ⟨_, mem_map_of_mem ha, ?_⟩
    split_ifs <;> exact ⟨hid, hacc⟩
  · obtain ⟨hlt, hheld⟩ := h.held i c hc
    refine ⟨hlt.trans (lt_succ_self _), fun a ha hacct => ?_⟩
    obtain ⟨a₀, ha₀, hid, hacc, -⟩ := hmap a ha
    obtain ⟨haid, hrow⟩ := hheld a₀ ha₀ (hacc.trans hacct)
    exact ⟨hid ▸ haid, hrow⟩
  · obtain ⟨a₀, ha₀, -, hacc₀, hver, -⟩ := hmap a ha
    exact hle ha₀ hver ((h.stored i sess account v hc).2 a₀ ha₀ (hacc₀.trans hacc))
  · obtain ⟨hlt, hver, hrows⟩ := h.changes ch hch
    refine ⟨hlt.trans (lt_succ_self _), fun a ha hacct => ?_, hrows⟩
    obtain ⟨a₀, ha₀, -, hacc₀, hver', -⟩ := hmap a ha
    exact hle ha₀ hver' (hver a₀ ha₀ (hacc₀.trans hacct))
  · obtain ⟨a₀, -, hid₀, -, -, heq⟩ := hmap a ha
    rw [heq, if_pos (hid₀.trans hid)]

variable {a : LoginAction}

lemma Inv.stepLogin (h : Inv s) (hsafe : s.Safe a) (hs : stepLogin P s a = some s') : Inv s' := by
  cases a <;> simp only [Logins.stepLogin, reduceCtorEq] at hs
  case loginRead i email =>
    split_ifs at hs
    cases hs
    exact h.setLogging i _
  case loginVerify i password =>
    split at hs
    · split_ifs at hs <;> cases hs <;> exact h.setLogging i _
    · cases hs
      exact h.setLogging i _
    · cases hs
  case loginCreate i tokenHash now ok =>
    split at hs <;> cases hs
    next row hrow =>
    refine Inv.setLogging ?_ i none
    cases hins : if ok then s.insertSession tokenHash row (now + sessionTTL) else none with
    | none => exact h
    | some s₁ =>
      split_ifs at hins
      refine h.insertSession hins ?_
      simpa only [Safe, hrow] using hsafe

lemma Inv.stepChange (h : Inv s) (hsafe : s.Safe a)
    (hs : stepChange P s a = some s') : Inv s'.tick := by
  cases a <;> simp only [Logins.stepChange, reduceCtorEq] at hs
  case changeAuthorize i tokenHash now =>
    split_ifs at hs
    cases hs
    refine (h.setChanging i (fun c hc => ?_) fun sess account v hc => ?_).tick
    · obtain ⟨r, hr, rfl⟩ := Option.mem_map.1 hc
      exact h.held_of_mem (mem_of_find?_eq_some (Option.mem_filter_iff.1 hr).1)
    · cases hcur : s.currentSession tokenHash now <;> simp [hcur] at hc
  case changeLoad i ok =>
    split at hs <;> cases hs
    next sess hsess =>
    have hheld := h.held i _ hsess
    refine (h.setChanging i (fun c hc => ?_) fun sess' account v hc => ?_).tick
    · obtain ⟨row, -, rfl⟩ := Option.mem_map.1 hc
      exact hheld
    · obtain ⟨row, -, heq⟩ := Option.map_eq_some_iff.1 hc
      cases heq
  case changeVerify i current new salt =>
    split at hs
    · next sess row hsess =>
      split_ifs at hs
      · cases hs
        have hheld := h.held i _ hsess
        refine (h.setChanging i (fun c hc => ?_) fun _ _ _ hc => ?_).tick
        · cases hc
          exact hheld
        · cases hc
      · cases hs
        exact (h.setChanging_none i).tick
    · cases hs
  case changeStore i ok =>
    split at hs
    · next sess pwHash hsess =>
      split at hs
      · next row hrow =>
        split_ifs at hrow
        cases hs
        obtain ⟨hinv, hver⟩ := h.updateAdminPassword sess.adminID pwHash
        have hheld : (s.updateAdminPassword sess.adminID pwHash).tick.Held sess := hinv.held i _ hsess
        refine hinv.setChanging i (fun c hc => ?_) fun sess' account v hc => ?_
        · cases hc
          exact hheld
        · cases hc
          refine ⟨?_, fun a ha hacc => (hver a ha (hheld.2 a ha hacc).1).ge⟩
          simp only [Safe, hsess] at hsafe
          exact hsafe row (mem_of_find?_eq_some hrow)
            (of_decide_eq_true (find?_some (p := fun a : Admin => a.id = sess.adminID) hrow))
      · cases hs
        exact (h.setChanging_none i).tick
    · cases hs
  case changeRevoke i ok =>
    split at hs
    · next sess account v hsess =>
      split_ifs at hs
      · cases hs
        obtain ⟨rfl, hver⟩ := h.stored i sess account v hsess
        have hheld : s.Held sess := h.held i _ hsess
        have hrev := h.revokeWhere fun r => r.adminID = sess.adminID && r.id ≠ sess.id
        refine (Inv.setChanging_none ?_ i).tick
        refine { hrev with changes := forall_mem_cons.2 ⟨⟨hheld.1, hver, ?_⟩, hrev.changes⟩ }
        -- a session the revocation spares has the id, and so is the session, of the request
        intro r hr hlive hacc
        left
        obtain ⟨r₀, hr₀, rfl⟩ := mem_map.1 hr
        split_ifs at hlive hacc ⊢ with hp
        obtain ⟨a, ha, hid, hacct⟩ := h.owned r₀ hr₀
        obtain ⟨haid, r', hr', hrid, hser, -⟩ := hheld.2 a ha (hacct.trans hacc)
        rw [← hser]
        refine h.rows r₀ hr₀ r' hr' ?_
        simp only [Bool.and_eq_true, decide_eq_true_eq, not_and, not_not] at hp
        rw [hrid]
        exact hp (hid.symm.trans haid)
      · cases hs
        exact (h.setChanging_none i).tick
    · cases hs

lemma Inv.step (h : Inv s) (hsafe : s.Safe a) (hs : step P s a = some s') : Inv s' := by
  obtain ⟨s₁, hs₁, rfl⟩ := Option.map_eq_some_iff.1 hs
  cases a with
  | loginRead | loginVerify | loginCreate => exact (h.stepLogin hsafe hs₁).tick
  | createAdmin email password salt =>
    simp only [] at hs₁
    split_ifs at hs₁
    · cases hins : s.insertAdmin email (P.hash password salt) with
      | none =>
        rw [hins] at hs₁
        cases hs₁
        exact h.tick
      | some s₂ =>
        rw [hins] at hs₁
        cases hs₁
        exact h.insertAdmin hins
    · cases hs₁
      exact h.tick
  | deleteAdmin id =>
    cases hs₁
    exact (h.removeAdmin id).tick
  | logout id =>
    cases hs₁
    exact (h.revokeWhere _).tick
  | _ => exact h.stepChange hsafe hs₁

/-- What a password change that returned promises: of the sessions of its admin that are accepted,
each is the one that made the change or its login verified that password or a later one. -/
def Ended (s : Logins) (ch : Changed) : Prop :=
  ∀ tokenHash now r, s.currentSession tokenHash now = some r →
    ∀ a ∈ s.admins, a.account = ch.account → r.adminID = a.id →
      r.serial = ch.session ∨ (r.account = ch.account ∧ ch.version ≤ r.version)

/-- In every run whose steps are safe, password changes end what they promise to, and a session that
is accepted is one of an admin that has not been deleted. -/
theorem reach_changes_end_sessions {t : Logins} (h : Runs.Reach (step P) Safe Initial t) :
    (∀ ch ∈ t.changed, t.Ended ch)
      ∧ ∀ tokenHash now r, t.currentSession tokenHash now = some r → t.Owned r := by
  have hinv : Inv t := h.invariant (fun s hs => hs.inv) fun s a s' hi hok hs => hi.step hok hs
  have hmem : ∀ {tokenHash now r}, t.currentSession tokenHash now = some r →
      r ∈ t.sessions ∧ r.revoked = false := fun hr => by
    obtain ⟨hfind, hok⟩ := Option.filter_eq_some_iff.1 hr
    simp only [Bool.and_eq_true, Bool.not_eq_true'] at hok
    exact ⟨mem_of_find?_eq_some hfind, hok.1⟩
  refine ⟨fun ch hch tokenHash now r hr a ha hacc hadm => ?_, fun tokenHash now r hr => ?_⟩
  · obtain ⟨hrow, hlive⟩ := hmem hr
    obtain ⟨b, hb, hbid, hbacc⟩ := hinv.owned r hrow
    have hba : b = a := hinv.ids b hb a ha (hbid.trans hadm)
    have hracc : r.account = ch.account := by rw [← hbacc, hba, hacc]
    exact ((hinv.changes ch hch).2.2 r hrow hlive hracc).imp_right fun hver => ⟨hracc, hver⟩
  · exact hinv.owned r (hmem hr).1

section Sample

instance (s : Logins) (r : SessionRow) : Decidable (s.Owned r) :=
  inferInstanceAs (Decidable (∃ a ∈ s.admins, a.id = r.adminID ∧ a.account = r.account))

def Sample.passwords : Passwords := ⟨fun password _ => password, fun password hash => password = hash⟩

def Sample.old : Str := List.replicate 8 1

def Sample.new : Str := List.replicate 8 2

def Sample.start : Logins where
  admins := [⟨2, [2], old, 1, 1⟩, ⟨1, [1], old, 0, 0⟩]
  sessions := []
  logging := fun _ => none
  changing := fun _ => none
  changed := []
  clock := 2

lemma Sample.start_initial : Initial start :=
  ⟨rfl, fun _ => rfl, fun _ => rfl, rfl, by decide, by decide, by decide⟩

def Sample.loginChecked (i : ℕ) : List LoginAction := [.loginRead i [2], .loginVerify i old]

def Sample.login (i : ℕ) (tokenHash : Str) : List LoginAction :=
  loginChecked i ++ [.loginCreate i tokenHash 0 true]

def Sample.change (tokenHash : Str) : List LoginAction :=
  [.changeAuthorize 0 tokenHash 0, .changeLoad 0 true, .changeVerify 0 old new [],
    .changeStore 0 true, .changeRevoke 0 true]

/-- A login that verified the old password before the change is in after it; and one that did so
before its admin was deleted is in as the admin that was given the id next. -/
theorem login_overtaken :
    (∃ s ∈ Runs.run (step Sample.passwords) Runs.Free Sample.start
        (Sample.login 0 [7] ++ Sample.loginChecked 1 ++ Sample.change [7]
          ++ [.loginCreate 1 [8] 0 true]),
      ∃ ch ∈ s.changed, ∃ r ∈ s.currentSession [8] 0, ∃ a ∈ s.admins, a.account = ch.account
        ∧ r.adminID = a.id ∧ r.serial ≠ ch.session ∧ r.version < ch.version)
      ∧ ∃ s ∈ Runs.run (step Sample.passwords) Runs.Free Sample.start
        (Sample.loginChecked 1 ++ [.deleteAdmin 2, .createAdmin [3] Sample.new [],
          .loginCreate 1 [8] 0 true]),
      ∃ r ∈ s.currentSession [8] 0, ¬ s.Owned r := by
  decide

theorem reach_changes_end_sessions_sample : ∃ s, Runs.run (step Sample.passwords) Safe Sample.start
      (Sample.login 0 [7] ++ Sample.login 1 [8] ++ Sample.change [7]) = some s
    ∧ s.changed ≠ [] ∧ ∀ ch ∈ s.changed, s.Ended ch :=
  Runs.exists_run_with Sample.start_initial (by decide) fun _ hreach _ =>
    (reach_changes_end_sessions hreach).1

end Sample

end Logins

end Warphold.Fleet
