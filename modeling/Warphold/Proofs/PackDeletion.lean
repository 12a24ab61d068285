import Warphold.Maintenance.PackGC
import Warphold.Proofs.Resolution

/-!
# Packs in use are kept

A pack an entry refers to is safe from a run if the run knows the entry, if the pack is too young,
or if its session is found active.
-/

namespace Warphold.Maintenance

open List Option Function Phase AList Repo Content

/-- No other entry of the content is greater. -/
def Standing (ndx : List Index) (e : Info) : Prop :=
  e ∈ ndx.flatten ∧ ∀ i ∈ ndx.flatten, i.contentID = e.contentID → contentInfoGreaterThan i e = false

instance (ndx : List Index) (e : Info) : Decidable (Standing ndx e) :=
  inferInstanceAs (Decidable (_ ∧ _))

lemma Standing.of_append {ndx : List Index} {is : Index} {e : Info}
    (h : Standing (ndx ++ [is]) e) : Standing ndx e ∨ e ∈ is := by
  obtain ⟨hmem, hmax⟩ := h
  rw [flatten_append, flatten_singleton, mem_append] at hmem
  rcases hmem with hmem | hmem
  · refine .inl ⟨hmem, fun i hi hid => hmax i ?_ hid⟩
    simp [flatten_append, hi]
  · exact .inr hmem

lemma Standing.mem_usedPacks {ndx view : List Index} {e : Info} (h : Standing ndx e)
    (hview : ∀ i ∈ view.flatten, i ∈ ndx.flatten) (he : e ∈ view.flatten) :
    e.packBlobID ∈ usedPacks view := by
  have hsome : (resolve view.flatten e.contentID).isSome := (resolve_isSome _ _).2 ⟨e, he, rfl⟩
  obtain ⟨w, hw⟩ := isSome_iff_exists.1 hsome
  have hstands := resolve_stands hw
  have hwe : contentInfoGreaterThan w e = false :=
    h.2 w (hview w (mem_filter.1 hstands.1).1) (by simpa using (mem_filter.1 hstands.1).2)
  have hew : contentInfoGreaterThan e w = false :=
    hstands.2 e (mem_filter.2 ⟨he, by simp⟩)
  have hpack : e.packBlobID = w.packBlobID := (tie_of_not_greater hew hwe).2.2
  rw [hpack, usedPacks]
  exact mem_map.2 ⟨w, Builder.mem_infos.2 ⟨_, (lookup_addAll_empty _ _).trans hw⟩, rfl⟩

lemma dash_notMem_hex (rand : Str) : (45 : UInt8) ∉ Hex.encodeToString rand := by
  have hdigit : ∀ n < 16, Hex.digit n ≠ 45 := by decide
  intro h
  simp only [Hex.encodeToString, mem_flatMap, mem_cons, not_mem_nil, or_false] at h
  obtain ⟨b, -, hb | hb⟩ := h
  · have := b.toNat_lt
    exact hdigit _ (by omega) hb.symm
  · exact hdigit _ (by omega) hb.symm

lemma sessionIDFromBlobID_packBlobID {pre : Str} (rand : Str) {sid : SessionID}
    (hpre : pre ∈ packPrefixes) (hsid : sid.valid = true) :
    sessionIDFromBlobID (packBlobID pre rand sid) = sid := by
  have hp : (45 : UInt8) ∉ pre := by
    revert hpre
    revert pre
    decide
  simp only [SessionID.valid, Bool.and_eq_true, Bool.not_eq_true', contains_eq_mem,
    decide_eq_false_iff_not] at hsid
  have hsplit : Strings.split (packBlobID pre rand sid) 45 =
      [pre ++ Hex.encodeToString rand, sid] := by
    rw [Strings.split, packBlobID, splitOn_append_cons_self_of_not_mem,
      splitOn_eq_singleton hsid.2]
    simp [hp, dash_notMem_hex]
  simp [sessionIDFromBlobID, hsplit, hsid.1]

namespace Phase

def start? : Phase → Option ℤ
  | idle => none
  | started t | refreshed t _ | listing t _ _ _ | deleting t _ _ _ => some t

def view : Phase → List Index
  | refreshed _ v | listing _ v _ _ => v
  | _ => []

def queue : Phase → List Blob
  | deleting _ _ _ q => q
  | _ => []

def Knows (p : Phase) (e : Info) : Prop :=
  match p with
  | idle | started _ => True
  | refreshed _ view | listing _ view _ _ => e ∈ view.flatten
  | deleting _ _ used _ => e.packBlobID ∈ used

/-- A blob of a session is safe from the run, by its age or by the session's marker. -/
def Covers (safety : SafetyParameters) (p : Phase) (markers : AList fun _ : SessionID => Marker)
    (sid : SessionID) (ts : ℤ) : Prop :=
  match p with
  | idle | started _ => True
  | refreshed t _ => tooYoung safety t ts = true ∨
      ∃ m, markers.lookup sid = some m ∧ unexpired safety t m.checkpointTime = true
  | listing t _ names active => tooYoung safety t ts = true ∨
      (sid ∈ names ∧ ∃ m, markers.lookup sid = some m ∧
        unexpired safety t m.checkpointTime = true) ∨
      ∃ c, active sid = some c ∧ unexpired safety t c = true
  | deleting t active _ _ => tooYoung safety t ts = true ∨
      ∃ c, active sid = some c ∧ unexpired safety t c = true

variable {safety : SafetyParameters} {p : Phase} {sid : SessionID} {ts : ℤ}
  {markers markers' : AList fun _ : SessionID => Marker}

lemma Covers.mono (h : p.Covers safety markers sid ts)
    (hm : ∀ m, markers.lookup sid = some m → markers'.lookup sid = some m) :
    p.Covers safety markers' sid ts := by
  cases p with
  | idle => trivial
  | started t => trivial
  | refreshed t view =>
    rcases h with h | ⟨m, h, hu⟩
    · exact .inl h
    · exact .inr ⟨m, hm m h, hu⟩
  | listing t view names active =>
    rcases h with h | ⟨hn, m, h, hu⟩ | h
    · exact .inl h
    · exact .inr (.inl ⟨hn, m, hm m h, hu⟩)
    · exact .inr (.inr h)
  | deleting t active used queue => exact h

lemma tooYoung_of_le {start ts : ℤ} (hmin : cutoffTimeSlack < safety.packDeleteMinAge)
    (h : start ≤ ts) : tooYoung safety start ts = true := by
  simp only [tooYoung, Bool.or_eq_true, decide_eq_true_eq]
  omega

lemma covers_recent (hmin : cutoffTimeSlack < safety.packDeleteMinAge)
    (h : ∀ t, p.start? = some t → t ≤ ts) : p.Covers safety markers sid ts := by
  cases p with
  | idle => trivial
  | started t => trivial
  | refreshed t view => exact .inl (tooYoung_of_le hmin (h t rfl))
  | listing t view names active => exact .inl (tooYoung_of_le hmin (h t rfl))
  | deleting t active used queue => exact .inl (tooYoung_of_le hmin (h t rfl))

end Phase

namespace Repo

variable (safety : SafetyParameters)

def InTime (s : Repo) (w : Writer) : Prop :=
  s.now + cutoffTimeSlack < w.checkpointTime + safety.sessionExpirationAge

instance (s : Repo) (w : Writer) : Decidable (s.InTime safety w) :=
  inferInstanceAs (Decidable (_ < _))

/-- A blob that a run does not delete. -/
def Kept (s : Repo) (b : Blob) : Prop :=
  ∃ ts, s.timestamp b = some ts ∧ b ∉ s.phase.queue ∧
    s.phase.Covers safety s.markers b.sessionID ts

structure Inv (s : Repo) : Prop where
  clock : ∀ t, s.phase.start? = some t → t ≤ s.now
  view : ∀ e ∈ s.phase.view.flatten, e ∈ s.index.flatten
  queue : ∀ b, .pack b ∈ s.phase.queue → s.packs b ≠ none
  sessions : ∀ sid, s.markers.lookup sid ≠ none ∨ .marker sid ∈ s.phase.queue → sid ∈ s.sessions
  entries : ∀ e, Standing s.index e → ∃ ts, s.packs e.packBlobID = some ts ∧
    .pack e.packBlobID ∉ s.phase.queue ∧
    (s.phase.Knows e ∨ s.phase.Covers safety s.markers (sessionIDFromBlobID e.packBlobID) ts)
  marker : ∀ sid w, s.writers sid = some w → s.InTime safety w →
    (∃ m, s.markers.lookup sid = some m ∧ m.checkpointTime = w.checkpointTime) ∧
      s.Kept safety (.marker sid)
  packs : ∀ sid w, s.writers sid = some w → ∀ b ∈ w.packs, sessionIDFromBlobID b = sid ∧
    (s.InTime safety w → s.Kept safety (.pack b))

variable {safety} {s s' : Repo}

variable {w : Writer} {sid : SessionID} {active : SessionID → Option ℤ} {markers : AList fun _ : SessionID => Marker} {a : Action}

lemma unexpired_of_inTime {start : ℤ} (h : s.InTime safety w)
    (hclock : start ≤ s.now) : unexpired safety start w.checkpointTime = true := by
  simp only [unexpired, decide_eq_true_eq]
  unfold InTime at h
  omega

lemma Inv.rephase (h : s.Inv safety) {p : Phase} (hclock : ∀ t, p.start? = some t → t ≤ s.now)
    (hview : ∀ e ∈ p.view.flatten, e ∈ s.index.flatten)
    (hqueue : ∀ b ∈ p.queue, b ∈ s.phase.queue ∨ s.timestamp b ≠ none)
    (hentries : ∀ e ts, Standing s.index e → s.packs e.packBlobID = some ts →
      .pack e.packBlobID ∉ s.phase.queue →
      s.phase.Knows e ∨ s.phase.Covers safety s.markers (sessionIDFromBlobID e.packBlobID) ts →
      .pack e.packBlobID ∉ p.queue ∧
        (p.Knows e ∨ p.Covers safety s.markers (sessionIDFromBlobID e.packBlobID) ts))
    (hlive : ∀ b ts, s.timestamp b = some ts →
      (∀ t, s.phase.start? = some t →
        ∃ m, s.markers.lookup b.sessionID = some m ∧ unexpired safety t m.checkpointTime = true) →
      b ∉ s.phase.queue → s.phase.Covers safety s.markers b.sessionID ts →
      b ∉ p.queue ∧ p.Covers safety s.markers b.sessionID ts) :
    Inv safety { s with phase := p } := by
  have hkept : ∀ sid w, s.writers sid = some w → s.InTime safety w → ∀ b : Blob,
      b.sessionID = sid → s.Kept safety b → Kept safety { s with phase := p } b := by
    rintro sid w hw hin b rfl ⟨ts, hts, hq, hc⟩
    obtain ⟨⟨m, hm, hmc⟩, -⟩ := h.marker _ w hw hin
    have hmark : ∀ t, s.phase.start? = some t → ∃ m, s.markers.lookup b.sessionID = some m ∧
        unexpired safety t m.checkpointTime = true := fun t ht =>
      ⟨m, hm, hmc ▸ unexpired_of_inTime hin (h.clock t ht)⟩
    obtain ⟨hq', hc'⟩ := hlive b ts hts hmark hq hc
    exact ⟨ts, hts, hq', hc'⟩
  refine ⟨hclock, hview, fun b hb => (hqueue _ hb).elim (h.queue b) id, fun sid hsid => ?_,
    fun e he => ?_, fun sid w hw hin => ?_, fun sid w hw b hb => ?_⟩
  · rcases hsid with hsid | hsid
    · exact h.sessions sid (.inl hsid)
    · rcases hqueue _ hsid with hq | hts
      · exact h.sessions sid (.inr hq)
      · exact h.sessions sid (.inl fun hnone => hts (by simp [timestamp, hnone]))
  · obtain ⟨ts, hts, hq, hc⟩ := h.entries e he
    exact ⟨ts, hts, hentries e ts he hts hq hc⟩
  · obtain ⟨hm, hk⟩ := h.marker sid w hw hin
    exact ⟨hm, hkept sid w hw hin _ rfl hk⟩
  · obtain ⟨hsid, hk⟩ := h.packs sid w hw b hb
    exact ⟨hsid, fun hin => hkept sid w hw hin (.pack b) hsid (hk hin)⟩

/-- A phase that starts when the one before it did, and has nothing to delete yet. -/
lemma Inv.proceed (h : s.Inv safety) {p p' : Phase} (hp : s.phase = p) (hstart : p'.start? = p.start?)
    (hview : ∀ e ∈ p'.view.flatten, e ∈ s.index.flatten) (hqueue : p'.queue = [])
    (hknows : ∀ e, Standing s.index e → p.Knows e → p'.Knows e)
    (hcov : ∀ {sid ts}, p.Covers safety s.markers sid ts → p'.Covers safety s.markers sid ts) :
    Inv safety { s with phase := p' } := by
  subst hp
  exact h.rephase (fun t ht => h.clock t (hstart ▸ ht)) hview (by simp [hqueue])
    (fun e _ he _ _ hc => ⟨by simp [hqueue], hc.imp (hknows e he) hcov⟩)
    fun _ _ _ _ _ hc => ⟨by simp [hqueue], hcov hc⟩

lemma addSession_spec (active : SessionID → Option ℤ) (sid : SessionID) (m : Marker) :
    (∃ c, addSession active sid m sid = some c ∧ m.checkpointTime ≤ c) ∧
      ∀ sid' c, active sid' = some c → ∃ c', addSession active sid m sid' = some c' ∧ c ≤ c' := by
  unfold addSession
  cases ha : active sid with
  | none =>
    refine ⟨⟨_, by simp, le_rfl⟩, fun sid' c hc => ⟨c, ?_, le_rfl⟩⟩
    have hne : sid' ≠ sid := by
      rintro rfl
      rw [ha] at hc
      cases hc
    simpa [hne] using hc
  | some old =>
    simp only []
    split_ifs with hlt
    · refine ⟨⟨_, by simp, le_rfl⟩, fun sid' c hc => ?_⟩
      by_cases hne : sid' = sid
      · subst hne
        obtain rfl : old = c := some.inj (ha.symm.trans hc)
        exact ⟨_, by simp, hlt.le⟩
      · exact ⟨c, by simpa [hne] using hc, le_rfl⟩
    · exact ⟨⟨old, ha, not_lt.1 hlt⟩, fun sid' c hc => ⟨c, hc, le_rfl⟩⟩

lemma unexpired_mono {start c c' : ℤ} (h : unexpired safety start c = true) (hc : c ≤ c') :
    unexpired safety start c' = true := by
  simp only [unexpired, decide_eq_true_eq] at h ⊢
  omega

lemma covers_readMarker {t ts : ℤ} {view : List Index} {sid' : SessionID} {names : List SessionID}
    (h : (listing t view (sid :: names) active).Covers safety markers sid' ts) :
    (listing t view names
      (((markers.lookup sid).map (addSession active sid)).getD active)).Covers safety markers sid' ts
    := by
  rcases h with h | ⟨hn, m, hm, hu⟩ | ⟨c, hc, hu⟩
  · exact .inl h
  · rcases mem_cons.1 hn with rfl | hn
    · obtain ⟨c, hc, hle⟩ := (addSession_spec active sid' m).1
      refine .inr (.inr ⟨c, ?_, unexpired_mono hu hle⟩)
      simpa [hm] using hc
    · exact .inr (.inl ⟨hn, m, hm, hu⟩)
  · refine .inr (.inr ?_)
    cases hm : markers.lookup sid with
    | none => exact ⟨c, by simpa using hc, hu⟩
    | some m =>
      obtain ⟨c', hc', hle⟩ := (addSession_spec active sid m).2 sid' c hc
      exact ⟨c', by simpa using hc', unexpired_mono hu hle⟩

lemma not_deletable {t ts : ℤ} {used : List Str} {queue : List Blob} {b : Blob}
    (h : (deleting t active used queue).Covers safety markers b.sessionID ts) :
    deletable safety t active b ts = false := by
  unfold deletable
  rcases h with h | ⟨c, hc, hu⟩
  · simp [h]
  · simp [hc, hu]

lemma Inv.delete (h : s.Inv safety) {t : ℤ} {used : List Str}
    {queue : List Blob} (hp : s.phase = .deleting t active used queue) {b : Blob} (hb : b ∈ queue) :
    Inv safety { s.deleteBlob b with phase := .deleting t active used (queue.filter (· ≠ b)) } := by
  have hts : ∀ b', b' ≠ b → (s.deleteBlob b).timestamp b' = s.timestamp b' := by
    intro b' hne
    cases b <;> cases b' <;> simp_all [deleteBlob, timestamp, lookup_erase_ne]
  have hne : ∀ b' : Blob, b' ∉ s.phase.queue → b' ≠ b := by
    rintro b' hb' rfl
    rw [hp] at hb'
    exact hb' hb
  have hsame : (s.deleteBlob b).index = s.index ∧ (s.deleteBlob b).writers = s.writers ∧
      (s.deleteBlob b).now = s.now ∧ (s.deleteBlob b).sessions = s.sessions := by
    cases b <;> exact ⟨rfl, rfl, rfl, rfl⟩
  have hkept : ∀ b', s.Kept safety b' → Kept safety
      { s.deleteBlob b with phase := .deleting t active used (queue.filter (· ≠ b)) } b' := by
    rintro b' ⟨ts, hts', hq, hc⟩
    refine ⟨ts, (hts b' (hne b' hq)).trans hts', fun hmem => hq ?_, ?_⟩
    · rw [hp]
      exact (mem_filter.1 hmem).1
    · rw [hp] at hc
      exact hc
  refine ⟨fun t' ht' => ?_, by simp [Phase.view], fun b' hb' => ?_, fun sid hsid => ?_,
    fun e he => ?_, fun sid w hw hin => ?_, fun sid w hw b' hb' => ?_⟩
  · rw [show t' = t from (some.inj ht').symm]
    exact hsame.2.2.1 ▸ h.clock t (by rw [hp]; rfl)
  · obtain ⟨hmem, hb'⟩ := mem_filter.1 hb'
    have hb'' : Blob.pack b' ≠ b := by simpa using hb'
    have := h.queue b' (by rw [hp]; exact hmem)
    exact fun hnone => this ((hts _ hb'').symm.trans hnone)
  · rw [show ({ s.deleteBlob b with phase := .deleting t active used _ } : Repo).sessions = s.sessions
      from hsame.2.2.2]
    rcases hsid with hm | hmem
    · refine h.sessions sid (.inl fun hnone => hm ?_)
      cases b with
      | pack id => exact hnone
      | marker sid' =>
        by_cases heq : sid = sid'
        · exact heq ▸ lookup_erase _ _
        · exact (lookup_erase_ne heq).trans hnone
    · refine h.sessions sid (.inr ?_)
      rw [hp]
      exact (mem_filter.1 hmem).1
  · rw [show ({ s.deleteBlob b with phase := .deleting t active used _ } : Repo).index = s.index
      from hsame.1] at he
    obtain ⟨ts, hts', hq, hc⟩ := h.entries e he
    refine ⟨ts, (hts (.pack e.packBlobID) (hne _ hq)).trans hts', fun hmem => hq ?_, ?_⟩
    · rw [hp]
      exact (mem_filter.1 hmem).1
    · rw [hp] at hc
      exact hc
  · have hw' : s.writers sid = some w := hsame.2.1 ▸ hw
    have hin' : s.InTime safety w := by
      unfold InTime at hin ⊢
      exact hsame.2.2.1 ▸ hin
    obtain ⟨⟨m, hm, hmc⟩, hk⟩ := h.marker sid w hw' hin'
    refine ⟨⟨m, ?_, hmc⟩, hkept _ hk⟩
    cases b with
    | pack id => exact hm
    | marker sid' =>
      obtain ⟨ts, -, hq, -⟩ := hk
      have hsid : sid ≠ sid' := fun heq => hne _ hq (by rw [heq])
      exact (lookup_erase_ne hsid).trans hm
  · have hw' : s.writers sid = some w := hsame.2.1 ▸ hw
    obtain ⟨hsid, hk⟩ := h.packs sid w hw' b' hb'
    refine ⟨hsid, fun hin => hkept _ (hk ?_)⟩
    unfold InTime at hin ⊢
    exact hsame.2.2.1 ▸ hin

lemma Inv.stepRun (h : s.Inv safety) (hs : s.stepRun safety a = some s') : s'.Inv safety := by
  cases a <;> simp only [stepRun, reduceCtorEq] at hs
  case start =>
    split at hs <;> cases hs
    exact h.rephase (by simp [Phase.start?]) (by simp [Phase.view]) (by simp [Phase.queue])
      (fun _ _ _ _ _ _ => ⟨by simp [Phase.queue], .inl trivial⟩)
      (fun _ _ _ _ _ _ => ⟨by simp [Phase.queue], trivial⟩)
  case refresh =>
    split at hs <;> cases hs
    next t hp =>
    have hstart : s.phase.start? = some t := by rw [hp]; rfl
    refine h.rephase (fun t' ht' => ?_) (fun e he => he) (by simp [Phase.queue])
      (fun e _ he _ _ _ => ⟨by simp [Phase.queue], .inl he.1⟩)
      (fun b ts _ hm _ _ => ⟨by simp [Phase.queue], .inr (hm t hstart)⟩)
    exact h.clock t' (by rw [hstart]; exact ht')
  case addIndexBlob ndx =>
    split at hs
    swap
    · cases hs
    next t view hp =>
    split_ifs at hs with hmem
    cases hs
    refine h.proceed hp rfl (fun e he => ?_) rfl (fun e _ hk => ?_) id
    · simp only [Phase.view, flatten_append, flatten_singleton, mem_append] at he
      rcases he with he | he
      · exact h.view e (by rw [hp]; exact he)
      · exact mem_flatten.2 ⟨ndx, hmem, he⟩
    · simp only [Knows, flatten_append, mem_append] at hk ⊢
      exact .inl hk
  case listMarkers =>
    split at hs <;> cases hs
    next t view hp =>
    refine h.proceed hp rfl (fun e he => h.view e (by rw [hp]; exact he)) rfl (fun _ _ => id) ?_
    rintro sid ts (hc | ⟨m, hm, hu⟩)
    · exact .inl hc
    · refine .inr (.inl ⟨?_, m, hm, hu⟩)
      rw [← AList.mem_keys, ← AList.lookup_isSome, hm]
      rfl
  case readMarker =>
    split at hs <;> cases hs
    next t view sid names active hp =>
    exact h.proceed hp rfl (fun e he => h.view e (by rw [hp]; exact he)) rfl (fun _ _ => id)
      covers_readMarker
  case findUsed =>
    split at hs <;> cases hs
    next t view active hp =>
    have hview : ∀ e ∈ view.flatten, e ∈ s.index.flatten := fun e he =>
      h.view e (by rw [hp]; exact he)
    refine h.proceed hp rfl (by simp [Phase.view]) rfl (fun e he hk => he.mem_usedPacks hview hk) ?_
    rintro sid ts (hc | ⟨hn, -⟩ | hc)
    · exact .inl hc
    · cases hn
    · exact .inr hc
  case scan b =>
    split at hs
    · next t active used queue ts hp hts =>
      split_ifs at hs with hdel
      · cases hs
        have hstart : s.phase.start? = some t := by rw [hp]; rfl
        refine h.rephase (fun t' ht' => h.clock t' (by rw [hstart]; exact ht'))
          (by simp [Phase.view]) (fun b' hb' => ?_) (fun e ts' _ hts' hq hc => ⟨?_, ?_⟩)
          (fun b' ts' hts' _ hq hc => ⟨?_, ?_⟩)
        · rcases mem_cons.1 hb' with rfl | hb'
          · exact .inr (by simp [hts])
          · exact .inl (by rw [hp]; exact hb')
        · rw [hp] at hc hq
          intro hmem
          rcases mem_cons.1 hmem with heq | hmem
          · subst heq
            obtain rfl : ts' = ts := some.inj (hts'.symm.trans hts)
            rcases hc with hc | hc
            · exact hdel.1 _ hc rfl
            · have := not_deletable (b := .pack e.packBlobID) hc
              rw [hdel.2] at this
              cases this
          · exact hq hmem
        · rw [hp] at hc
          exact hc
        · rw [hp] at hc hq
          intro hmem
          rcases mem_cons.1 hmem with rfl | hmem
          · obtain rfl : ts' = ts := some.inj (hts'.symm.trans hts)
            have := not_deletable hc
            rw [hdel.2] at this
            cases this
          · exact hq hmem
        · rw [hp] at hc
          exact hc
      · cases hs
        exact h
    · cases hs
  case delete b =>
    split at hs
    · next hp =>
      split_ifs at hs with hb
      cases hs
      exact h.delete hp hb
    · cases hs
  case stop =>
    cases hs
    exact h.rephase (by simp [Phase.start?]) (by simp [Phase.view]) (by simp [Phase.queue])
      (fun _ _ _ _ _ _ => ⟨by simp [Phase.queue], .inl trivial⟩)
      (fun _ _ _ _ _ _ => ⟨by simp [Phase.queue], trivial⟩)

variable (safety) in
/-- The entries of a session that stand are known to the run or have packs that are too young. -/
def Seen (s : Repo) (sid : SessionID) (start : ℤ) (view : List Index) : Prop :=
  ∀ e ∈ s.index.flatten, Standing s.index e → sessionIDFromBlobID e.packBlobID = sid →
    e ∈ view.flatten ∨ (s.packs e.packBlobID).any (tooYoung safety start) = true

instance (s : Repo) (sid : SessionID) (start : ℤ) (view : List Index) :
    Decidable (s.Seen safety sid start view) :=
  inferInstanceAs (Decidable (∀ e ∈ s.index.flatten, _))

variable (safety) in
/-- No session ends while a run has read the index blobs without its entries and has yet to read its
marker, unless its packs are too young; and no index blob is written in the last second of a session. -/
def Safe (s : Repo) : Action → Prop
  | .putIndex sid _ => ∀ w ∈ s.writers sid, s.InTime safety w
  | .commitSession sid =>
    match s.phase with
    | .refreshed start view => s.Seen safety sid start view
    | .listing start view names _ => sid ∈ names → s.Seen safety sid start view
    | _ => True
  | _ => True

instance (s : Repo) (a : Action) : Decidable (s.Safe safety a) := by
  cases a
  case putIndex sid is => exact inferInstanceAs (Decidable (∀ w ∈ s.writers sid, _))
  case commitSession sid =>
    unfold Safe
    cases s.phase <;> infer_instance
  all_goals exact isTrue trivial

lemma writer_eq_some (h : s.writer safety sid = some w) :
    s.writers sid = some w := (filter_eq_some_iff.1 h).1

lemma Inv.tick (h : s.Inv safety) (d : ℕ) : Inv safety { s with now := s.now + d } := by
  have hin : ∀ w, InTime safety { s with now := s.now + d } w → s.InTime safety w := by
    intro w hw
    unfold InTime at hw ⊢
    simp only [] at hw
    omega
  refine ⟨fun t ht => ?_, h.view, h.queue, h.sessions, h.entries,
    fun sid w hw ht => h.marker sid w hw (hin w ht), fun sid w hw b hb => ⟨(h.packs sid w hw b hb).1, fun ht => (h.packs sid w hw b hb).2 (hin w ht)⟩⟩
  have := h.clock t ht
  simp only []
  omega

lemma Inv.startSession (h : s.Inv safety) (hmin : cutoffTimeSlack < safety.packDeleteMinAge)
    {c : ℤ} (hnew : sid ∉ s.sessions) :
    Inv safety { s with
      sessions := sid :: s.sessions
      markers := s.markers.insert sid ⟨c, s.now⟩
      writers := update s.writers sid (some ⟨c, []⟩) } := by
  have hm : s.markers.lookup sid = none := by
    by_contra hsome
    exact hnew (h.sessions sid (.inl hsome))
  have hlook : ∀ sid' m, s.markers.lookup sid' = some m →
      (s.markers.insert sid ⟨c, s.now⟩).lookup sid' = some m := by
    intro sid' m hsid'
    have hne : sid' ≠ sid := by
      rintro rfl
      rw [hm] at hsid'
      cases hsid'
    rwa [lookup_insert_ne hne]
  have hts : ∀ b ts, s.timestamp b = some ts → timestamp { s with
      sessions := sid :: s.sessions
      markers := s.markers.insert sid ⟨c, s.now⟩
      writers := update s.writers sid (some ⟨c, []⟩) } b = some ts := by
    intro b ts hb
    cases b with
    | pack id => exact hb
    | marker sid' =>
      obtain ⟨m, hm', rfl⟩ := map_eq_some_iff.1 hb
      simp [timestamp, hlook sid' m hm']
  have hkept : ∀ b, s.Kept safety b → Kept safety { s with
      sessions := sid :: s.sessions
      markers := s.markers.insert sid ⟨c, s.now⟩
      writers := update s.writers sid (some ⟨c, []⟩) } b := by
    rintro b ⟨ts, hb, hq, hc⟩
    exact ⟨ts, hts b ts hb, hq, hc.mono (hlook _)⟩
  refine ⟨h.clock, h.view, h.queue, fun sid' hsid' => ?_, fun e he => ?_, fun sid' w hw hin => ?_,
    fun sid' w hw b hb => ?_⟩
  · by_cases heq : sid' = sid
    · exact heq ▸ mem_cons_self
    · rw [lookup_insert_ne heq] at hsid'
      exact mem_cons_of_mem _ (h.sessions sid' hsid')
  · obtain ⟨ts, hp, hq, hc⟩ := h.entries e he
    exact ⟨ts, hp, hq, hc.imp id fun hc => hc.mono (hlook _)⟩
  · rcases Runs.update_eq_some hw with ⟨rfl, hbegun⟩ | ⟨hne, hw⟩
    · cases hbegun
      refine ⟨⟨_, lookup_insert _, rfl⟩, s.now, by simp [timestamp], fun hq => ?_,
        covers_recent hmin h.clock⟩
      exact hnew (h.sessions _ (.inr hq))
    · obtain ⟨⟨m, hm', hmc⟩, hk⟩ := h.marker sid' w hw hin
      exact ⟨⟨m, hlook _ _ hm', hmc⟩, hkept _ hk⟩
  · rcases Runs.update_eq_some hw with ⟨rfl, hbegun⟩ | ⟨hne, hw⟩
    · cases hbegun
      cases hb
    · exact ⟨(h.packs sid' w hw b hb).1, fun hin => hkept _ ((h.packs sid' w hw b hb).2 hin)⟩

lemma Inv.putPack (h : s.Inv safety) (hmin : cutoffTimeSlack < safety.packDeleteMinAge)
    {b : Str} (hw : s.writers sid = some w) (hb : s.packs b = none)
    (hsid : sessionIDFromBlobID b = sid) :
    Inv safety { s with
      packs := update s.packs b (some s.now)
      writers := update s.writers sid (some { w with packs := b :: w.packs }) } := by
  have hts : ∀ b' ts, s.timestamp b' = some ts → timestamp { s with
      packs := update s.packs b (some s.now)
      writers := update s.writers sid (some { w with packs := b :: w.packs }) } b'
        = some ts := by
    intro b' ts hb'
    cases b' with
    | pack id =>
      have hne : id ≠ b := by
        rintro rfl
        simp [timestamp, hb] at hb'
      simpa [timestamp, hne] using hb'
    | marker sid' => exact hb'
  have hkept : ∀ b', s.Kept safety b' → Kept safety { s with
      packs := update s.packs b (some s.now)
      writers := update s.writers sid (some { w with packs := b :: w.packs }) } b' := by
    rintro b' ⟨ts, hb', hq, hc⟩
    exact ⟨ts, hts b' ts hb', hq, hc⟩
  have hnew : Kept safety { s with
      packs := update s.packs b (some s.now)
      writers := update s.writers sid (some { w with packs := b :: w.packs }) } (.pack b) :=
    ⟨s.now, by simp [timestamp], fun hq => h.queue _ hq hb, covers_recent hmin h.clock⟩
  refine ⟨h.clock, h.view, fun b' hb' hnone => ?_, h.sessions, fun e he => ?_,
    fun sid' w' hw' hin => ?_, fun sid' w' hw' b' hb' => ?_⟩
  · obtain ⟨ts, hts'⟩ := ne_none_iff_exists'.1 (h.queue b' hb')
    have := hts (.pack b') ts hts'
    rw [show timestamp _ (.pack b') = none from hnone] at this
    cases this
  · obtain ⟨ts, hp, hq, hc⟩ := h.entries e he
    exact ⟨ts, hts (.pack e.packBlobID) ts hp, hq, hc⟩
  · rcases Runs.update_eq_some hw' with ⟨rfl, hmore⟩ | ⟨hne, hw'⟩
    · cases hmore
      obtain ⟨hm, hk⟩ := h.marker sid' w hw hin
      exact ⟨hm, hkept _ hk⟩
    · obtain ⟨hm, hk⟩ := h.marker sid' w' hw' hin
      exact ⟨hm, hkept _ hk⟩
  · rcases Runs.update_eq_some hw' with ⟨rfl, hmore⟩ | ⟨hne, hw'⟩
    · cases hmore
      rcases mem_cons.1 hb' with rfl | hb'
      · exact ⟨hsid, fun _ => hnew⟩
      · obtain ⟨hs, hk⟩ := h.packs sid' w hw b' hb'
        exact ⟨hs, fun hin => hkept _ (hk hin)⟩
    · obtain ⟨hs, hk⟩ := h.packs sid' w' hw' b' hb'
      exact ⟨hs, fun hin => hkept _ (hk hin)⟩

lemma Inv.putIndex (h : s.Inv safety) {is : Index}
    (hw : s.writers sid = some w) (hin : s.InTime safety w) (his : ∀ i ∈ is, i.packBlobID ∈ w.packs) :
    Inv safety { s with index := s.index ++ [is] } := by
  refine { h with view := fun e he => ?_, entries := fun e he => ?_ }
  · have := h.view e he
    simp only [flatten_append, mem_append]
    exact .inl this
  · rcases he.of_append with he | he
    · exact h.entries e he
    · obtain ⟨hsid, hk⟩ := h.packs sid w hw _ (his e he)
      obtain ⟨ts, hp, hq, hc⟩ := hk hin
      exact ⟨ts, hp, hq, .inr hc⟩

lemma Inv.leave (h : s.Inv safety)
    (hm : ∀ sid', sid' ≠ sid → markers.lookup sid' = s.markers.lookup sid')
    (hsub : ∀ sid', markers.lookup sid' ≠ none → s.markers.lookup sid' ≠ none)
    (hentries : ∀ e ts, Standing s.index e → s.packs e.packBlobID = some ts →
      sessionIDFromBlobID e.packBlobID = sid →
      s.phase.Knows e ∨ s.phase.Covers safety s.markers sid ts →
      s.phase.Knows e ∨ s.phase.Covers safety markers sid ts) :
    Inv safety { s with markers := markers, writers := update s.writers sid none } := by
  have hwriter : ∀ sid' w, update s.writers sid none sid' = some w →
      sid' ≠ sid ∧ s.writers sid' = some w := by
    intro sid' w hw
    rcases Runs.update_eq_some hw with ⟨-, hnone⟩ | hw
    · cases hnone
    · exact hw
  have hkept : ∀ b : Blob, b.sessionID ≠ sid → s.Kept safety b →
      Kept safety { s with markers := markers, writers := update s.writers sid none } b := by
    rintro b hne ⟨ts, hb, hq', hc⟩
    refine ⟨ts, ?_, hq', hc.mono fun m hm' => (hm _ hne).trans hm'⟩
    cases b with
    | pack id => exact hb
    | marker sid' => simpa [timestamp, hm sid' hne] using hb
  refine ⟨h.clock, h.view, h.queue, fun sid' hsid' => h.sessions sid' (hsid'.imp (hsub sid') id),
    fun e he => ?_, fun sid' w hw hin => ?_, fun sid' w hw b hb => ?_⟩
  · obtain ⟨ts, hp, hq', hc⟩ := h.entries e he
    refine ⟨ts, hp, hq', ?_⟩
    by_cases hsid : sessionIDFromBlobID e.packBlobID = sid
    · rw [hsid] at hc ⊢
      exact hentries e ts he hp hsid hc
    · exact hc.imp id fun hc => hc.mono fun m hm' => (hm _ hsid).trans hm'
  · obtain ⟨hne, hw⟩ := hwriter sid' w hw
    obtain ⟨⟨m, hm', hmc⟩, hk⟩ := h.marker sid' w hw hin
    exact ⟨⟨m, (hm _ hne).trans hm', hmc⟩, hkept _ hne hk⟩
  · obtain ⟨hne, hw⟩ := hwriter sid' w hw
    obtain ⟨hs, hk⟩ := h.packs sid' w hw b hb
    exact ⟨hs, fun hin => hkept (.pack b) (show sessionIDFromBlobID b ≠ sid from hs ▸ hne) (hk hin)⟩

lemma Inv.commitSession (h : s.Inv safety) (hsafe : s.Safe safety (.commitSession sid)) :
    Inv safety { s with
      markers := s.markers.erase sid
      writers := update s.writers sid none } := by
  refine h.leave (fun sid' hne => lookup_erase_ne hne) (fun sid' hsid' hnone => hsid' ?_)
    fun e ts he hp hsid hc => ?_
  · by_cases heq : sid' = sid
    · exact heq ▸ lookup_erase _ _
    · exact (lookup_erase_ne heq).trans hnone
  · have hyoung : ∀ t, (s.packs e.packBlobID).any (tooYoung safety t) = true →
        tooYoung safety t ts = true := fun t ht => by simpa [hp] using ht
    rcases hc with hc | hc
    · exact .inl hc
    · cases hph : s.phase with
      | idle => exact .inl trivial
      | started t => exact .inl trivial
      | refreshed t view =>
        simp only [Safe, hph] at hsafe
        exact (hsafe e he.1 he hsid).imp id fun hy => .inl (hyoung t hy)
      | listing t view names active =>
        simp only [Safe, hph] at hsafe
        rw [hph] at hc
        rcases hc with hc | ⟨hn, -⟩ | hc
        · exact .inr (.inl hc)
        · exact (hsafe hn e he.1 he hsid).imp id fun hy => .inl (hyoung t hy)
        · exact .inr (.inr (.inr hc))
      | deleting t active used queue =>
        rw [hph] at hc
        exact .inr hc

lemma Inv.stepWriter (h : s.Inv safety) (hmin : cutoffTimeSlack < safety.packDeleteMinAge)
    (hsafe : s.Safe safety a) (hs : s.stepWriter safety a = some s') :
    s'.Inv safety := by
  cases a with
  | startSession sid c =>
    simp only [stepWriter] at hs
    split_ifs at hs with hg
    cases hs
    exact h.startSession hmin hg.2.2
  | putPack sid pre rand =>
    simp only [stepWriter, bind_eq_bind, bind_eq_some_iff] at hs
    obtain ⟨w, hw, hs⟩ := hs
    split_ifs at hs with hg
    cases hs
    exact h.putPack hmin (writer_eq_some hw) (by simpa using hg.2.2)
      (sessionIDFromBlobID_packBlobID rand hg.1 hg.2.1)
  | putIndex sid is =>
    simp only [stepWriter, bind_eq_bind, bind_eq_some_iff] at hs
    obtain ⟨w, hw, hs⟩ := hs
    split_ifs at hs with hg
    cases hs
    exact h.putIndex (writer_eq_some hw) (hsafe w (writer_eq_some hw)) hg
  | commitSession sid =>
    simp only [stepWriter, bind_eq_bind, bind_eq_some_iff] at hs
    obtain ⟨w, -, hs⟩ := hs
    cases hs
    exact h.commitSession hsafe
  | crash sid =>
    simp only [stepWriter] at hs
    cases hs
    exact h.leave (fun _ _ => rfl) (fun _ => id) fun _ _ _ _ _ hc => hc
  | _ => simp [stepWriter] at hs

lemma Inv.step (h : s.Inv safety) (hmin : cutoffTimeSlack < safety.packDeleteMinAge)
    (hsafe : s.Safe safety a) (hs : s.step safety a = some s') : s'.Inv safety := by
  cases a with
  | tick d =>
    simp only [step] at hs
    cases hs
    exact h.tick d
  | startSession sid c => exact h.stepWriter hmin hsafe hs
  | putPack sid pre rand => exact h.stepWriter hmin hsafe hs
  | putIndex sid is => exact h.stepWriter hmin hsafe hs
  | commitSession sid => exact h.stepWriter hmin hsafe hs
  | crash sid => exact h.stepWriter hmin hsafe hs
  | _ =>
    simp only [step] at hs
    exact h.stepRun hs

lemma Initial.inv (h : s.Initial) : s.Inv safety := by
  refine ⟨by simp [h.idle, start?], by simp [h.idle, view], by simp [h.idle, queue],
    fun sid hsid => ?_, fun e he => ?_, fun sid w hw => ?_, fun sid w hw => ?_⟩
  · rcases hsid with hsid | hsid
    · exact h.sessions sid (lookup_isSome.1 (isSome_iff_ne_none.2 hsid))
    · simp [h.idle, queue] at hsid
  · obtain ⟨ts, hts⟩ := isSome_iff_exists.1 (h.index e he.1)
    exact ⟨ts, hts, by simp [h.idle, queue], .inl (by rw [h.idle]; trivial)⟩
  · simp [h.writers] at hw
  · simp [h.writers] at hw

/-- Every entry that stands has its pack. -/
def Sound (s : Repo) : Prop := ∀ e ∈ s.index.flatten, Standing s.index e → (s.packs e.packBlobID).isSome

instance (s : Repo) : Decidable s.Sound := inferInstanceAs (Decidable (∀ e ∈ s.index.flatten, _))

def fresh : Repo where
  now := 0
  packs _ := none
  markers := ∅
  index := []
  writers _ := none
  sessions := []
  phase := .idle

lemma fresh_initial : fresh.Initial := ⟨rfl, fun _ => rfl, by simp [fresh], by simp [fresh]⟩

def sampleEntry : Info :=
  ⟨packBlobID (str "p") [1] (str "s1"), 0, 1, 1, 0, 0, ⟨0, [1]⟩, false, 2, 0⟩

def endsUnseen : List Action :=
  [.startSession (str "s1") 0, .putPack (str "s1") (str "p") [1], .tick (30 * 3600 * 10 ^ 9),
    .start, .refresh, .putIndex (str "s1") [sampleEntry], .commitSession (str "s1"),
    .listMarkers, .findUsed, .scan (.pack sampleEntry.packBlobID),
    .delete (.pack sampleEntry.packBlobID)]

end Repo

end Warphold.Maintenance
