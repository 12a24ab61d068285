import Warphold.Fleet.Commands

/-!
# Commands are delivered until they are reported

A report of a command is known by its task id, which no other report of the agent has, so a report
row that bars the insertion of another is a report of the same command.
-/

namespace Warphold.Fleet.Commands

open List State

section TaskIDs

lemma commandTaskID_injective : Function.Injective commandTaskID := fun _ _ h =>
  Strconv.formatInt_natCast_injective (append_cancel_left h)

lemma digit36_ne_dash : ∀ d < 36, digit36 d ≠ 45 := by decide

lemma dash_notMem_formatInt36 (n : ℕ) : (45 : UInt8) ∉ formatInt36 n := by
  intro h
  obtain ⟨d, hd, hd45⟩ := mem_map.1 h
  exact digit36_ne_dash d (Nat.digits_lt_base (by norm_num) (mem_reverse.1 hd)) hd45

lemma watchReport_taskID_ne (t : TaskInfo) (n : ℕ) : (watchReport t).taskID ≠ commandTaskID n := by
  intro h
  have hcmd : commandTaskID n = str "cmd" ++ 45 :: Strconv.formatInt n := rfl
  have hcut := Strings.cut_append (dash_notMem_formatInt36 t.startNano) t.taskID
  have hcut' := Strings.cut_append (show (45 : UInt8) ∉ str "cmd" by decide) (Strconv.formatInt n)
  rw [← hcmd, ← h] at hcut'
  have heq : formatInt36 t.startNano = str "cmd" := congrArg Prod.fst (hcut.symm.trans hcut')
  have hlen := congrArg length heq
  rw [formatInt36, length_map, length_reverse] at hlen
  have hlong := (Nat.lt_digits_length_iff (by norm_num) t.startNano).2 t.past
  have h3 : (str "cmd").length = 3 := rfl
  omega

/-- A report of a command is known by its task id. -/
structure Report.Keyed (r : Report) : Prop where
  own : r.commandID ≠ 0 → r.taskID = commandTaskID r.commandID
  only : ∀ n, r.taskID = commandTaskID n → r.commandID = n

lemma commandReport_ids (c : PollCommand) (started finished : ℤ) (result : Except Str Report) :
    (commandReport c started finished result).taskID = commandTaskID c.id
      ∧ (commandReport c started finished result).commandID = c.id := by
  unfold commandReport
  split_ifs <;> cases result <;> exact ⟨rfl, rfl⟩

lemma commandReport_keyed (c : PollCommand) (started finished : ℤ)
    (result : Except Str Report) : (commandReport c started finished result).Keyed := by
  obtain ⟨ht, hc⟩ := commandReport_ids c started finished result
  refine ⟨fun _ => by rw [ht, hc], fun n hn => ?_⟩
  rw [hc]
  exact commandTaskID_injective (ht.symm.trans hn)

lemma watchReport_keyed (t : TaskInfo) : (watchReport t).Keyed :=
  ⟨fun h => absurd rfl h, fun n hn => absurd hn (watchReport_taskID_ne t n)⟩

end TaskIDs

section Invariant

def Known (s : State) (ids : List ℕ) : Prop := ∀ n ∈ ids, n < s.nextCommandID

def HandlerOk (s : State) : Handler → Prop
  | .polling _ _ _ before => Known s before
  | .polled agentID _ _ before pending => Known s before
    ∧ ∀ c ∈ s.commands, c.agentID = agentID → c.id ∈ before → c.ackedAt = none → c ∈ pending
  | .reporting _ r => r.Keyed
  | .reported agentID r => r.Keyed
    ∧ ∃ row ∈ s.reports, row.agentID = agentID ∧ row.report.taskID = r.taskID

def Delivered (s : State) (a : Answer) : Prop :=
  ∀ c ∈ s.commands, c.agentID = a.agentID → c.id ∈ a.before → c.ackedAt = none →
    ∃ policy commands, a.response = .ok policy commands ∧ ⟨c.id, c.kind, c.source⟩ ∈ commands

def AckReported (s : State) : Prop :=
  ∀ c ∈ s.commands, c.ackedAt ≠ none →
    ∃ row ∈ s.reports, row.agentID = c.agentID ∧ row.report.commandID = c.id

def OncePerTask (reports : List Row) : Prop :=
  reports.Pairwise fun a b => a.agentID = b.agentID → a.report.taskID ≠ b.report.taskID

structure Inv (s : State) : Prop where
  sent : ∀ x ∈ s.sentReports, x.2.Keyed
  rows : ∀ row ∈ s.reports, row.report.Keyed
  once : OncePerTask s.reports
  acked : AckReported s
  handlers : ∀ i h, s.handlers i = some h → HandlerOk s h
  answers : ∀ a ∈ s.answers, Known s a.before ∧ Delivered s a

/-- Commands and reports are added, and pending commands are acknowledged. -/
structure Grows (s s' : State) : Prop where
  next : s.nextCommandID ≤ s'.nextCommandID
  pending : ∀ c ∈ s'.commands, c.ackedAt = none → c ∈ s.commands ∨ s.nextCommandID ≤ c.id
  reports : s.reports ⊆ s'.reports

variable {s s' : State}

lemma Grows.same (hc : s'.commands = s.commands) (hr : s'.reports = s.reports) : Grows s s' where
  next := by simp only [nextCommandID, hc, le_refl]
  pending c h _ := .inl (hc ▸ h)
  reports := hr ▸ Subset.refl _

lemma Known.mono (hg : Grows s s') {ids : List ℕ} (h : Known s ids) : Known s' ids :=
  fun n hn => (h n hn).trans_le hg.next

lemma Grows.mem (hg : Grows s s') {ids : List ℕ} (h : Known s ids) {c : Command}
    (hc : c ∈ s'.commands) (hid : c.id ∈ ids) (ha : c.ackedAt = none) : c ∈ s.commands :=
  (hg.pending c hc ha).resolve_right (not_le.2 (h _ hid))

lemma HandlerOk.mono (hg : Grows s s') {h : Handler} (ho : HandlerOk s h) : HandlerOk s' h := by
  cases h with
  | polling agentID etag policy before => exact Known.mono hg ho
  | polled agentID etag policy before pending =>
    exact ⟨Known.mono hg ho.1, fun c hc ha hid hack =>
      ho.2 c (hg.mem ho.1 hc hid hack) ha hid hack⟩
  | reporting agentID r => exact ho
  | reported agentID r =>
    obtain ⟨hk, row, hrow, heq⟩ := ho
    exact ⟨hk, row, hg.reports hrow, heq⟩

lemma Delivered.mono (hg : Grows s s') {a : Answer} (hk : Known s a.before)
    (h : Delivered s a) : Delivered s' a :=
  fun c hc ha hid hack => h c (hg.mem hk hc hid hack) ha hid hack

lemma Inv.grow (h : Inv s) (hg : Grows s s')
    (hsent : ∀ x ∈ s'.sentReports, x ∈ s.sentReports ∨ x.2.Keyed)
    (hrows : ∀ row ∈ s'.reports, row.report.Keyed) (honce : OncePerTask s'.reports)
    (hacked : AckReported s')
    (hhandlers : ∀ i x, s'.handlers i = some x → s.handlers i = some x ∨ HandlerOk s' x)
    (hanswers : ∀ a ∈ s'.answers, a ∈ s.answers ∨ Known s' a.before ∧ Delivered s' a) :
    Inv s' where
  sent x hx := (hsent x hx).elim (h.sent x) id
  rows := hrows
  once := honce
  acked := hacked
  handlers i x hx := (hhandlers i x hx).elim (fun hx => (h.handlers i x hx).mono hg) id
  answers a ha := by
    rcases hanswers a ha with ha | ha
    · exact ⟨(h.answers a ha).1.mono hg, (h.answers a ha).2.mono hg (h.answers a ha).1⟩
    · exact ha

lemma Inv.quiet (h : Inv s) (hc : s'.commands = s.commands) (hr : s'.reports = s.reports)
    (ha : s'.answers = s.answers)
    (hsent : ∀ x ∈ s'.sentReports, x ∈ s.sentReports ∨ x.2.Keyed)
    (hhandlers : ∀ i x, s'.handlers i = some x → s.handlers i = some x ∨ HandlerOk s' x) :
    Inv s' := by
  refine h.grow (.same hc hr) hsent (hr ▸ h.rows) (hr ▸ h.once) ?_ hhandlers fun a ha' =>
    .inl (ha ▸ ha')
  unfold AckReported
  rw [hc, hr]
  exact h.acked

lemma Inv.setHandler (h : Inv s) {i : ℕ} {v : Option Handler}
    (hv : ∀ x, v = some x → HandlerOk s x) : Inv (s.setHandler i v) := by
  refine h.quiet rfl rfl rfl (fun _ => .inl) fun j x hx => ?_
  rcases Runs.update_eq_some hx with ⟨-, hx⟩ | ⟨-, hx⟩
  · exact .inr ((hv x hx).mono (.same rfl rfl))
  · exact .inl hx

lemma id_lt_nextCommandID {c : Command} (hc : c ∈ s.commands) : c.id < s.nextCommandID :=
  Nat.lt_succ_of_le (le_max_of_le' 0 (mem_map_of_mem hc) le_rfl)

lemma Inv.addCommand (h : Inv s) (agentID kind source : Str) :
    Inv (s.addCommand agentID kind source) := by
  have hg : Grows s (s.addCommand agentID kind source) := by
    refine ⟨?_, fun c hc _ => ?_, Subset.refl _⟩
    · have hnew := id_lt_nextCommandID (s := s.addCommand agentID kind source)
        (mem_append_right _ (mem_singleton_self _))
      exact hnew.le
    · rcases mem_append.1 hc with hc | hc
      · exact .inl hc
      · rw [mem_singleton.1 hc]
        exact .inr le_rfl
  refine h.grow hg (fun _ => .inl) h.rows h.once (fun c hc hack => ?_) (fun _ _ => .inl)
    fun _ => .inl
  rcases mem_append.1 hc with hc | hc
  · exact h.acked c hc hack
  · rw [mem_singleton.1 hc] at hack
    exact absurd rfl hack

lemma Inv.pollRespond (h : Inv s) {i : ℕ} {agentID etag : Str} {policy : Policy}
    {before : List ℕ} {pending : List Command}
    (hi : s.handlers i = some (.polled agentID etag policy before pending)) :
    Inv { s.setHandler i none with
      answers := ⟨agentID, before, pollResponse etag policy pending⟩ :: s.answers } := by
  obtain ⟨hk, hpending⟩ := h.handlers i _ hi
  refine h.grow (.same rfl rfl) (fun _ => .inl) h.rows h.once h.acked (fun j x hx => ?_)
    fun a ha => ?_
  · rcases Runs.update_eq_some hx with ⟨-, hx⟩ | ⟨-, hx⟩
    · cases hx
    · exact .inl hx
  · rcases mem_cons.1 ha with rfl | ha
    · refine .inr ⟨hk, fun c hc hagent hid hack => ?_⟩
      have hmem := hpending c hc hagent hid hack
      have hne : pending ≠ [] := ne_nil_of_mem hmem
      exact ⟨policy, _, if_neg fun h => hne h.2, mem_map_of_mem hmem⟩
    · exact .inl ha

lemma mem_addReport_key (s : State) (agentID : Str) (r : Report) :
    ∃ row ∈ (s.addReport agentID r).reports,
      row.agentID = agentID ∧ row.report.taskID = r.taskID := by
  unfold addReport
  split_ifs with h
  · obtain ⟨row, hrow, heq⟩ := any_eq_true.1 h
    simp only [Bool.and_eq_true, decide_eq_true_eq] at heq
    exact ⟨row, hrow, heq⟩
  · exact ⟨⟨agentID, r⟩, mem_append_right _ (mem_singleton_self _), rfl, rfl⟩

lemma Inv.addReport (h : Inv s) (agentID : Str) {r : Report} (hr : r.Keyed) :
    Inv (s.addReport agentID r) := by
  unfold State.addReport
  split_ifs with hany
  · exact h
  · have hnew : ∀ row ∈ s.reports, row.agentID = agentID → row.report.taskID ≠ r.taskID := by
      intro row hrow hagent htask
      exact hany (any_eq_true.2 ⟨row, hrow, by simp [hagent, htask]⟩)
    have hg : Grows s { s with reports := s.reports ++ [⟨agentID, r⟩] } :=
      ⟨le_rfl, fun _ hc _ => .inl hc, subset_append_left _ _⟩
    refine h.grow hg (fun _ => .inl) (fun row hrow => ?_) ?_ (fun c hc hack => ?_)
      (fun _ _ => .inl) fun _ => .inl
    · rcases mem_append.1 hrow with hrow | hrow
      · exact h.rows row hrow
      · rw [mem_singleton.1 hrow]
        exact hr
    · refine pairwise_append.2 ⟨h.once, pairwise_singleton _ _, fun row hrow b hb => ?_⟩
      rw [mem_singleton.1 hb]
      exact hnew row hrow
    · obtain ⟨row, hrow, heq⟩ := h.acked c hc hack
      exact ⟨row, mem_append_left _ hrow, heq⟩

lemma ack_id (id : ℕ) (agentID : Str) (at_ : ℤ) (c : Command) :
    (c.ack id agentID at_).id = c.id ∧ (c.ack id agentID at_).agentID = c.agentID := by
  unfold Command.ack
  split_ifs <;> exact ⟨rfl, rfl⟩

lemma Inv.ackCommand (h : Inv s) {id : ℕ} {agentID : Str} (at_ : ℤ)
    (hrow : ∃ row ∈ s.reports, row.agentID = agentID ∧ row.report.commandID = id) :
    Inv (s.ackCommand id agentID at_) := by
  have hnext : (s.ackCommand id agentID at_).nextCommandID = s.nextCommandID := by
    simp only [State.nextCommandID, State.ackCommand, List.map_map]
    congr 3
    exact funext fun c => (ack_id id agentID at_ c).1
  have hg : Grows s (s.ackCommand id agentID at_) := by
    refine ⟨hnext.ge, fun c hc hack => .inl ?_, List.Subset.refl _⟩
    obtain ⟨c₀, hc₀, rfl⟩ := mem_map.1 hc
    unfold Command.ack at hack ⊢
    split_ifs with hif
    · rw [if_pos hif] at hack
      cases hack
    · exact hc₀
  refine h.grow hg (fun _ => .inl) h.rows h.once (fun c hc hack => ?_) (fun _ _ => .inl)
    fun _ => .inl
  obtain ⟨c₀, hc₀, rfl⟩ := mem_map.1 hc
  rw [(ack_id id agentID at_ c₀).1, (ack_id id agentID at_ c₀).2]
  unfold Command.ack at hack
  split_ifs at hack with hif
  · rw [hif.1, hif.2.1]
    exact hrow
  · exact h.acked c₀ hc₀ hack

lemma Report.Keyed.stderr {r : Report} (h : r.Keyed) (e : Str) :
    ({ r with stderr := e } : Report).Keyed := ⟨h.own, h.only⟩

variable {a : CommandAction}

lemma Inv.stepServer (h : Inv s) (hs : s.stepServer a = some s') : Inv s' := by
  cases a <;> simp only [State.stepServer, reduceCtorEq] at hs
  case addCommand agentID kind source =>
    split_ifs at hs
    cases hs
    exact h.addCommand agentID kind source
  case setPolicy agentID policy =>
    cases hs
    exact h.quiet rfl rfl rfl (fun _ => .inl) fun _ _ => .inl
  case revoke agentID =>
    cases hs
    exact h.quiet rfl rfl rfl (fun _ => .inl) fun _ _ => .inl
  case pollBegin i agentID etag =>
    split_ifs at hs
    cases hs
    refine h.setHandler fun x hx => ?_
    cases hx
    intro n hn
    obtain ⟨c, hc, rfl⟩ := mem_map.1 hn
    exact id_lt_nextCommandID hc
  case pollPending i =>
    split at hs <;> cases hs
    next agentID etag policy before hi =>
    refine h.setHandler fun x hx => ?_
    cases hx
    refine ⟨h.handlers i _ hi, fun c hc hagent _ hack => mem_filter.2 ⟨hc, ?_⟩⟩
    simp [hagent, hack]
  case pollRespond i =>
    split at hs <;> cases hs
    next hi => exact h.pollRespond hi
  case reportBegin i agentID r =>
    split_ifs at hs with hcond
    cases hs
    refine h.setHandler fun x hx => ?_
    cases hx
    exact (h.sent _ hcond.1).stderr _
  case reportInsert i =>
    split at hs <;> cases hs
    next agentID r hi =>
    have hr : r.Keyed := h.handlers i _ hi
    refine (h.addReport agentID hr).setHandler fun x hx => ?_
    cases hx
    exact ⟨hr, mem_addReport_key s agentID r⟩
  case reportAck i at_ =>
    split at hs
    · next agentID r hi =>
      obtain ⟨hr, row, hrow, hagent, htask⟩ := h.handlers i _ hi
      split_ifs at hs with h0 <;> cases hs
      · exact h.setHandler nofun
      · refine (h.ackCommand at_ ⟨row, hrow, hagent, ?_⟩).setHandler nofun
        exact (h.rows row hrow).only _ (htask.trans (hr.own h0))
    · cases hs
  case fail i =>
    cases hs
    exact h.setHandler nofun

lemma Inv.stepAgent (h : Inv s) (hs : s.stepAgent a = some s') : Inv s' := by
  cases a <;> simp only [State.stepAgent, reduceCtorEq] at hs
  case sendPoll agentID =>
    cases hs
    exact h.quiet rfl rfl rfl (fun _ => .inl) fun _ _ => .inl
  case receive agentID response applied =>
    split_ifs at hs
    cases hs
    exact h.quiet rfl rfl rfl (fun _ => .inl) fun _ _ => .inl
  case runCommand agentID started finished result answered =>
    split at hs <;> cases hs
    next c queue hq =>
    refine h.quiet rfl rfl rfl (fun x hx => ?_) fun _ _ => .inl
    rcases mem_cons.1 hx with rfl | hx
    · exact .inr (commandReport_keyed c started finished result)
    · exact .inl hx
  case watch agentID t =>
    cases hs
    refine h.quiet rfl rfl rfl (fun x hx => ?_) fun _ _ => .inl
    rcases mem_cons.1 hx with rfl | hx
    · exact .inr (watchReport_keyed t)
    · exact .inl hx

lemma Inv.step (h : Inv s) (hs : s.step a = some s') : Inv s' := by
  cases a <;> simp only [State.step] at hs
  case sendPoll | receive | runCommand | watch => exact h.stepAgent hs
  all_goals exact h.stepServer hs

/-- In every state of every run: an answer to a poll has every command of the agent that was there
when the poll's handler started and is not acknowledged; an acknowledged command has its report
stored; and there is one report of a task at most. -/
theorem State.reach_delivered (h : Runs.Reach State.step Runs.Free State.Initial s) :
    (∀ a ∈ s.answers, ∀ c ∈ s.commands, c.agentID = a.agentID → c.id ∈ a.before →
        c.ackedAt = none → ∃ policy commands, a.response = .ok policy commands
          ∧ ⟨c.id, c.kind, c.source⟩ ∈ commands)
      ∧ (∀ c ∈ s.commands, c.ackedAt ≠ none → ∃ row ∈ s.reports,
        row.agentID = c.agentID ∧ row.report.commandID = c.id)
      ∧ s.reports.Pairwise fun a b => a.agentID = b.agentID → a.report.taskID ≠ b.report.taskID := by
  have hinv : Inv s := by
    refine Runs.Reach.invariant ?_ (fun _ _ _ hi _ hs => hi.step hs) h
    rintro _ ⟨policies, agents, rfl⟩
    exact ⟨nofun, nofun, .nil, nofun, nofun, nofun⟩
  exact ⟨fun a ha => (hinv.answers a ha).2, hinv.acked, hinv.once⟩

end Invariant

/-- A poll, its answer, the command's run, its report twice, and a poll that is not answered anew. -/
def delivering : List CommandAction :=
  [.addCommand [1] (str "pause") [], .sendPoll [1], .pollBegin 0 [1] [7], .pollPending 0,
    .pollRespond 0, .receive [1] (.ok ⟨[7], [], [], 60⟩ [⟨1, str "pause", []⟩]) true,
    .runCommand [1] 5 6 (.ok ⟨[], [], 0, [], 0, 0, [], 0, 0, [], []⟩) false,
    .reportBegin 1 [1] (commandReport ⟨1, str "pause", []⟩ 5 6
      (.ok ⟨[], [], 0, [], 0, 0, [], 0, 0, [], []⟩)),
    .reportBegin 2 [1] (commandReport ⟨1, str "pause", []⟩ 5 6
      (.ok ⟨[], [], 0, [], 0, 0, [], 0, 0, [], []⟩)),
    .reportInsert 1, .reportInsert 2, .reportAck 2 8, .reportAck 1 9, .pollBegin 3 [1] [7],
    .pollPending 3, .pollRespond 3]

theorem State.reach_delivered_once : ∃ s, Runs.Reach State.step Runs.Free State.Initial s
    ∧ s.reports.length = 1 ∧ s.answers.length = 2 ∧ (∃ c ∈ s.commands, c.ackedAt = some 8)
    ∧ (∀ a ∈ s.answers, ∀ c ∈ s.commands, c.agentID = a.agentID → c.id ∈ a.before →
        c.ackedAt = none → ∃ policy commands, a.response = .ok policy commands
          ∧ ⟨c.id, c.kind, c.source⟩ ∈ commands)
      ∧ (∀ c ∈ s.commands, c.ackedAt ≠ none → ∃ row ∈ s.reports,
        row.agentID = c.agentID ∧ row.report.commandID = c.id)
      ∧ s.reports.Pairwise fun a b => a.agentID = b.agentID → a.report.taskID ≠ b.report.taskID := by
  obtain ⟨s, hreach, h⟩ : ∃ s, Runs.Reach step Runs.Free Initial s
      ∧ s.reports.length = 1 ∧ s.answers.length = 2 ∧ ∃ c ∈ s.commands, c.ackedAt = some 8 :=
    Runs.exists_reach ⟨fun _ => ⟨[7], [], [], 60⟩, fun _ => [7], rfl⟩ delivering (by decide)
  exact ⟨s, hreach, h.1, h.2.1, h.2.2, reach_delivered hreach⟩

end Warphold.Fleet.Commands
