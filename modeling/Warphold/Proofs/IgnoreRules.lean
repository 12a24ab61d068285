import Warphold.Snapshot.Ignore
import Warphold.Lib.Lists

/-!
# Which rule hides an entry

The matchers of a context, outermost level first, decide by the last of them that matches
(`shouldIgnoreByName_eq`).
-/

namespace Warphold.Ignore

open Option hiding or_assoc

open List

variable {μ : Type} (w : Wcmatch μ)

section Decision

variable (path : Str) (isDir : Bool)

def Applies (m : μ) : Prop := w.doMatch m (trimLeadingCurrentDir path) isDir = true

instance (m : μ) : Decidable (Applies w path isDir m) := inferInstanceAs (Decidable (_ = true))

def Ignored (rules : List μ) : Prop :=
  ∃ m, (rules.filter (Applies w path isDir ·)).getLast? = some m ∧ w.negated m = false

variable {w path isDir}

lemma ignored_nil : ¬Ignored w path isDir [] := by
  rintro ⟨m, hm, -⟩
  simp at hm

lemma ignored_append_of_applies {above own : List μ} (h : ∃ m ∈ own, Applies w path isDir m) :
    Ignored w path isDir (above ++ own) ↔ Ignored w path isDir own := by
  obtain ⟨m, hm, ha⟩ := h
  have hne : own.filter (Applies w path isDir ·) ≠ [] :=
    ne_nil_of_mem (mem_filter.mpr ⟨hm, by simpa using ha⟩)
  unfold Ignored
  rw [filter_append, getLast?_append_of_ne_nil _ hne]

lemma ignored_append_of_not_applies {above own : List μ}
    (h : ∀ m ∈ own, ¬Applies w path isDir m) :
    Ignored w path isDir (above ++ own) ↔ Ignored w path isDir above := by
  have hnil : own.filter (Applies w path isDir ·) = [] := by
    rw [filter_eq_nil_iff]
    intro m hm
    simpa using h m hm
  unfold Ignored
  rw [filter_append, hnil, append_nil]

lemma not_ignored_of_not_applies {rules : List μ} (h : ∀ m ∈ rules, ¬Applies w path isDir m) :
    ¬Ignored w path isDir rules := by
  have hnil : Ignored w path isDir ([] ++ rules) ↔ Ignored w path isDir [] :=
    ignored_append_of_not_applies h
  rw [nil_append] at hnil
  rw [hnil]
  exact ignored_nil

lemma ignored_concat (rules : List μ) (m : μ) :
    Ignored w path isDir (rules ++ [m]) ↔
      if Applies w path isDir m then w.negated m = false else Ignored w path isDir rules := by
  split_ifs with h
  · rw [ignored_append_of_applies ⟨m, by simp, h⟩]
    unfold Ignored
    simp [h]
  · rw [ignored_append_of_not_applies (by simpa using h)]

lemma applyMatcher_eq_true (ig : Bool) (m : μ) :
    applyMatcher w path isDir ig m = true ↔
      if Applies w path isDir m then w.negated m = false else ig = true := by
  unfold applyMatcher Wcmatch.matchText
  by_cases h : Applies w path isDir m
  · have hd : w.doMatch m (trimLeadingCurrentDir path) isDir = true := h
    rw [if_pos h, hd]
    cases ig <;> cases w.negated m <;> simp
  · have hd : w.doMatch m (trimLeadingCurrentDir path) isDir = false := Bool.eq_false_iff.mpr h
    rw [if_neg h, hd]
    cases ig <;> cases w.negated m <;> simp

lemma foldl_applyMatcher (own : List μ) {above : List μ} {ig : Bool}
    (h : ig = true ↔ Ignored w path isDir above) :
    own.foldl (applyMatcher w path isDir) ig = true ↔ Ignored w path isDir (above ++ own) := by
  induction own generalizing above ig with
  | nil => simpa using h
  | cons m rest ih =>
    have hm : applyMatcher w path isDir ig m = true ↔ Ignored w path isDir (above ++ [m]) := by
      rw [applyMatcher_eq_true, ignored_concat]
      split_ifs
      · rfl
      · exact h
    have := ih hm
    rwa [append_assoc, singleton_append] at this

def rulesOf : List (Level μ) → List μ
  | [] => []
  | l :: parents => rulesOf parents ++ l.matchers

lemma shouldIgnoreByName_eq : ∀ levels : List (Level μ),
    shouldIgnoreByName w path isDir levels = true ↔ Ignored w path isDir (rulesOf levels)
  | [] => by
    have h : ¬Ignored w path isDir [] := ignored_nil
    simp [shouldIgnoreByName, rulesOf, h]
  | l :: parents => foldl_applyMatcher l.matchers (shouldIgnoreByName_eq parents)

end Decision

section Rules

def filesRead (d : Directory) (parents : List Directory) : List File :=
  match contextOf w parents with
  | none => []
  | some ctx => (dotIgnoreFilesIn d (effectiveDotIgnoreFiles ctx.level d)).getD []

def definedMatchers (d : Directory) (rel : Str) : Option (List μ) :=
  match d.definedPolicy with
  | none => some []
  | some fp => policyMatchers w fp rel

def ownRules (lines : Str → List Str) (d : Directory) (parents : List Directory) :
    Option (List μ) := do
  let policy ← definedMatchers w d (relativePath (d :: parents))
  let files ← (filesRead w d parents).mapM (fileMatchers w lines (relativePath (d :: parents)))
  some (policy ++ files.flatten)

def noParentIgnoreRules (d : Directory) : Bool :=
  match d.definedPolicy with
  | none => false
  | some fp => fp.noParentIgnoreRules

def splitRules (lines : Str → List Str) : List Directory → Option (List μ × List μ)
  | [] => some ([], [])
  | d :: parents => do
    let (cutOff, inForce) ← splitRules lines parents
    let own ← ownRules w lines d parents
    some (if noParentIgnoreRules d then (cutOff ++ inForce, own) else (cutOff, inForce ++ own))

variable {w}

lemma loadDotIgnoreFiles_eq_some {l l' : Level μ} {rel : Str} {files : List File} :
    loadDotIgnoreFiles w l rel files = some l' ↔
      ∃ ms, files.mapM (parseIgnoreFile w rel) = some ms ∧
        l' = { l with matchers := l.matchers ++ ms.flatten } := by
  unfold loadDotIgnoreFiles
  rw [bind_eq_bind, bind_eq_some_iff]
  simp only [some.injEq, eq_comm]

lemma overrideFromPolicy_matchers {l l' : Level μ} {fp : FilesPolicy} {rel : Str}
    (h : overrideFromPolicy w l fp rel = some l') (hl : l.matchers = []) :
    policyMatchers w fp rel = some l'.matchers := by
  unfold overrideFromPolicy at h
  obtain ⟨rules, hr, h⟩ := bind_eq_some_iff.1 h
  cases h
  simp [hl, hr]

lemma buildContext_rules {d : Directory} {parents : List Directory} {ctx ctx' : Context μ}
    (hctx : contextOf w parents = some ctx)
    (h : buildContext w (relativePath (d :: parents)) d ctx = some ctx') :
    ∃ own, ownRules w scannedLines d parents = some own ∧
      rulesOf (ctx'.level :: ctx'.parents) = rulesOf (ctx.level :: ctx.parents) ++ own := by
  unfold buildContext at h
  obtain ⟨files, hfiles, h⟩ := bind_eq_some_iff.1 h
  have hread : filesRead w d parents = files := by
    simp [filesRead, hctx, hfiles]
  unfold ownRules definedMatchers
  rw [hread]
  rcases hpol : d.definedPolicy with _ | pol
  · simp only [hpol] at h
    split_ifs at h with hempty
    · cases h
      rw [List.isEmpty_iff] at hempty
      subst hempty
      exact ⟨[], by simp, by simp⟩
    · obtain ⟨l, hl, h⟩ := bind_eq_some_iff.1 h
      cases h
      obtain ⟨ms, hms, rfl⟩ := loadDotIgnoreFiles_eq_some.mp hl
      refine ⟨ms.flatten, ?_, rfl⟩
      rw [show files.mapM (fileMatchers w scannedLines (relativePath (d :: parents))) = some ms
        from hms]
      rfl
  · simp only [hpol] at h
    obtain ⟨l₁, hl₁, h⟩ := bind_eq_some_iff.1 h
    obtain ⟨l, hl, h⟩ := bind_eq_some_iff.1 h
    cases h
    obtain ⟨ms, hms, rfl⟩ := loadDotIgnoreFiles_eq_some.mp hl
    refine ⟨l₁.matchers ++ ms.flatten, ?_, rfl⟩
    simp only [overrideFromPolicy_matchers hl₁ rfl, bind_eq_bind, bind_some]
    rw [show files.mapM (fileMatchers w scannedLines (relativePath (d :: parents))) = some ms
      from hms]
    rfl

lemma contextOf_rules : ∀ {chain : List Directory} {ctx : Context μ},
    contextOf w chain = some ctx → ∃ cutOff inForce,
      splitRules w scannedLines chain = some (cutOff, inForce) ∧
        rulesOf (ctx.level :: ctx.parents) = cutOff ++ inForce
  | [], ctx, h => by
    simp only [contextOf, some.injEq] at h
    subst h
    exact ⟨[], [], rfl, rfl⟩
  | d :: parents, ctx, h => by
    unfold contextOf at h
    obtain ⟨ctx₀, h₀, h⟩ := bind_eq_some_iff.1 h
    obtain ⟨cutOff, inForce, hsplit, hrules⟩ := contextOf_rules h₀
    obtain ⟨own, hown, hnew⟩ := buildContext_rules h₀ h
    unfold splitRules
    rw [hsplit, hown, hnew, hrules]
    rcases hno : noParentIgnoreRules d with _ | _
    · exact ⟨cutOff, inForce ++ own, by simp, by simp⟩
    · exact ⟨cutOff ++ inForce, own, by simp, rfl⟩

end Rules

section Lost

lemma mapM_congr_of_mem {α β : Type} {f g : α → Option β} :
    ∀ {l : List α}, (∀ x ∈ l, f x = g x) → l.mapM f = l.mapM g
  | [], _ => rfl
  | x :: l, h => by
    rw [mapM_cons, mapM_cons, h x (mem_cons_self),
      mapM_congr_of_mem fun y hy => h y (mem_cons_of_mem x hy)]

def droppedLines (text : Str) : List Str := ((rawLines text).dropWhile fits).map dropCR

lemma allLines_eq (text : Str) : allLines text = scannedLines text ++ droppedLines text := by
  unfold allLines scannedLines droppedLines
  rw [← map_append, takeWhile_append_dropWhile]

lemma fileMatchers_allLines_iff {rel : Str} {f : File} {ms : List μ}
    (h : parseIgnoreFile w rel f = some ms) :
    fileMatchers w allLines rel f = parseIgnoreFile w rel f ↔
      ∀ line ∈ droppedLines f.text, isRule line = false := by
  rw [h]
  unfold parseIgnoreFile fileMatchers at h
  unfold fileMatchers
  split_ifs at h ⊢ with hopen
  rw [allLines_eq, filter_append]
  constructor
  · intro hall line hline
    by_contra hrule
    have hlen := Lists.length_of_mapM hall
    rw [Lists.length_of_mapM h, length_append] at hlen
    have hmem : line ∈ (droppedLines f.text).filter isRule :=
      mem_filter.mpr ⟨hline, by simpa using hrule⟩
    have := length_pos_of_mem hmem
    omega
  · intro hnone
    have hnil : (droppedLines f.text).filter isRule = [] := by
      rw [filter_eq_nil_iff]
      intro line hline
      simp [hnone line hline]
    rw [hnil, append_nil, h]

theorem scannedLines_of_long_line {line : Str} (hline : 10 ∉ line)
    (hlong : maxScanTokenSize ≤ line.length) (rest : Str) :
    scannedLines (line ++ 10 :: rest) = [] := by
  have hsplit : Strings.split (line ++ 10 :: rest) 10 = line :: Strings.split rest 10 :=
    List.splitOnP_append_cons_of_forall_mem (fun x hx => by
      simpa using fun h : x = 10 => hline (h ▸ hx)) 10 (by simp) rest
  have hfits : fits line = false := by
    unfold fits
    simpa using hlong
  have hne := Strings.split_ne_nil rest 10
  unfold scannedLines rawLines
  rw [hsplit]
  dsimp only
  split_ifs
  · rw [List.dropLast_cons_of_ne_nil hne, List.takeWhile_cons_of_neg (by simp [hfits])]
    rfl
  · rw [List.takeWhile_cons_of_neg (by simp [hfits])]
    rfl

/-- Every line of every ignore file read on the way takes effect. -/
def EveryLine : List Directory → Prop
  | [] => True
  | d :: parents => EveryLine parents ∧ ∀ f ∈ filesRead w d parents,
      fileMatchers w allLines (relativePath (d :: parents)) f =
        parseIgnoreFile w (relativePath (d :: parents)) f

/-- No ignore file read on the way has a rule at or after a line that does not fit. -/
def NoRuleLost : List Directory → Prop
  | [] => True
  | d :: parents => NoRuleLost parents ∧ ∀ f ∈ filesRead w d parents,
      ∀ line ∈ droppedLines f.text, isRule line = false

variable {w}

lemma parse_of_ownRules {d : Directory} {parents : List Directory} {own : List μ}
    (h : ownRules w scannedLines d parents = some own) :
    ∀ f ∈ filesRead w d parents, ∃ ms, parseIgnoreFile w (relativePath (d :: parents)) f = some ms := by
  unfold ownRules at h
  obtain ⟨policy, -, h⟩ := bind_eq_some_iff.1 h
  obtain ⟨files, hfiles, -⟩ := bind_eq_some_iff.1 h
  exact fun f hf => (Lists.exists_of_mapM hfiles hf).imp fun _ => And.right

lemma everyLine_iff : ∀ {chain : List Directory} {ctx : Context μ},
    contextOf w chain = some ctx → (EveryLine w chain ↔ NoRuleLost w chain)
  | [], _, _ => Iff.rfl
  | d :: parents, ctx, h => by
    unfold contextOf at h
    obtain ⟨ctx₀, h₀, h⟩ := bind_eq_some_iff.1 h
    obtain ⟨own, hown, -⟩ := buildContext_rules h₀ h
    refine and_congr (everyLine_iff h₀) (forall₂_congr fun f hf => ?_)
    obtain ⟨ms, hms⟩ := parse_of_ownRules hown f hf
    exact fileMatchers_allLines_iff w hms

lemma ownRules_congr {d : Directory} {parents : List Directory}
    (h : ∀ f ∈ filesRead w d parents, fileMatchers w allLines (relativePath (d :: parents)) f =
      parseIgnoreFile w (relativePath (d :: parents)) f) :
    ownRules w allLines d parents = ownRules w scannedLines d parents := by
  have hfiles : (filesRead w d parents).mapM (fileMatchers w allLines (relativePath (d :: parents))) =
      (filesRead w d parents).mapM (fileMatchers w scannedLines (relativePath (d :: parents))) :=
    mapM_congr_of_mem h
  unfold ownRules
  rw [hfiles]

lemma splitRules_congr : ∀ {chain : List Directory}, EveryLine w chain →
    splitRules w allLines chain = splitRules w scannedLines chain
  | [], _ => rfl
  | d :: parents, h => by
    unfold splitRules
    rw [splitRules_congr h.1, ownRules_congr h.2]

end Lost

section Main

def Limited (ctx : Context μ) (d : Directory) (e : Entry) : Prop :=
  ctx.level.tooLarge e = true ∨ ctx.level.otherDevice d e = true

/-- What is to be hidden: the last matching rule ignores it, of all the lines of the ignore files and
without the rules a directory on the way does not inherit; or a limit excludes it. -/
def ToHide (ctx : Context μ) (d : Directory) (parents : List Directory) (e : Entry) : Prop :=
  (∃ cutOff inForce, splitRules w allLines (d :: parents) = some (cutOff, inForce) ∧
    Ignored w (entryPath d parents e) e.isDir inForce) ∨ Limited ctx d e

/-- Rules that are not to be inherited hide the entry only if it is hidden anyway. -/
def Unaffected (ctx : Context μ) (d : Directory) (parents : List Directory) (e : Entry) : Prop :=
  ∀ cutOff inForce, splitRules w scannedLines (d :: parents) = some (cutOff, inForce) →
    Ignored w (entryPath d parents e) e.isDir cutOff →
    (∃ m ∈ inForce, Applies w (entryPath d parents e) e.isDir m) ∨ Limited ctx d e

lemma ignored_append_iff {path : Str} {isDir : Bool} {cutOff inForce : List μ} {L : Prop} :
    ((Ignored w path isDir (cutOff ++ inForce) ∨ L) ↔ (Ignored w path isDir inForce ∨ L)) ↔
      (Ignored w path isDir cutOff → (∃ m ∈ inForce, Applies w path isDir m) ∨ L) := by
  by_cases ha : ∃ m ∈ inForce, Applies w path isDir m
  · rw [ignored_append_of_applies ha]
    exact ⟨fun _ _ => Or.inl ha, fun _ => Iff.rfl⟩
  · have hna : ∀ m ∈ inForce, ¬Applies w path isDir m := fun m hm hap => ha ⟨m, hm, hap⟩
    rw [ignored_append_of_not_applies hna]
    have hno : ¬Ignored w path isDir inForce := not_ignored_of_not_applies hna
    simp only [hno, ha, false_or]
    exact ⟨fun h hc => h.mp (Or.inl hc), fun h => ⟨fun hor => hor.elim h id, Or.inr⟩⟩

lemma hides_eq {d : Directory} {parents : List Directory} {e : Entry} {ctx : Context μ}
    {cutOff inForce : List μ} (h : contextOf w (d :: parents) = some ctx)
    (hrules : rulesOf (ctx.level :: ctx.parents) = cutOff ++ inForce)
    (hcache : skipCacheDirectory d = false) :
    hides w d parents e = some true ↔
      Ignored w (entryPath d parents e) e.isDir (cutOff ++ inForce) ∨ Limited ctx d e := by
  unfold hides
  rw [hcache, h, ← hrules, ← shouldIgnoreByName_eq]
  simp [Limited, or_assoc]

def endings : Wcmatch Str where
  newWildcardMatcher p _ := some p
  negated p := Strings.hasPrefix p (str "!")
  doMatch p text _ := Strings.hasSuffix text (Strings.trimPrefix p (str "!"))

def ruledRoot : Directory where
  child := fun _ => none
  definedPolicy := some { ignoreRules := [str "log"] }

def freeDirectory : Directory where
  name := str "a"
  child := fun _ => none
  definedPolicy := some { noParentIgnoreRules := true }

def logFile : Entry := ⟨str "x.log", false, 3, 0⟩

end Main

end Warphold.Ignore
