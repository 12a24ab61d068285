import Warphold.Gateway.Handler
import Warphold.Lib.Base64
import Warphold.Proofs.Listing

/-!
# Following a listing

A page is the first keys after a given one, in the order of the device's keys, and its token is the
last of them. What comes after that key is what the page left, so the pages put together are the
listing.
-/

namespace Warphold.Gateway

open Strings List Local

/-- The name of a device, the part of its prefix before the slash. -/
structure DeviceName (d : Str) : Prop where
  slash : 47 ∉ d
  nul : 0 ∉ d
  backslash : 92 ∉ d
  segment : badSegment d = false
  reserved : d ≠ tmpDir
  short : d.length ≤ 255

section Tokens

lemma decodeToken_encodeToken {p : Str} (hp : 0 ∉ p) (after q : Str) :
    decodeToken (encodeToken p after) q = if p = q then some after else none := by
  have hcut : cut (p ++ [0] ++ after) 0 = (p, after, true) := by
    rw [append_assoc]
    exact cut_append hp after
  simp only [decodeToken, encodeToken, Base64.rawURLDecodeString_encode, Option.bind_eq_bind,
    Option.bind_some, hcut, Bool.not_true, Bool.false_or, decide_eq_true_eq, ite_not]

lemma encodeToken_ne_nil (p after : Str) : encodeToken p after ≠ [] := by
  intro h
  have hdec := Base64.rawURLDecodeString_encode (p ++ [0] ++ after)
  rw [encodeToken] at h
  rw [h] at hdec
  have hnil : ([] : Str) = p ++ [0] ++ after := Option.some.inj hdec
  simp at hnil

end Tokens

section Pages

variable {t : Tree} {d pre : Str}

/-- The objects of a device with a prefix and after a key. -/
def remaining (t : Tree) (d pre after : Str) : List ObjectInfo :=
  (t.deviceObjects d).filter fun o => Strings.hasPrefix o.key pre && Strings.lt after o.key

lemma remaining_pairwise (t : Tree) (d pre after : Str) :
    (remaining t d pre after).Pairwise fun o p => lt o.key p.key = true :=
  (t.pairwise_deviceObjects d).sublist filter_sublist

lemma lt_of_hasPrefix {a k : Str} (hk : hasPrefix k pre = true)
    (ha : lt a pre = true) : lt a k = true := by
  obtain ⟨s, rfl⟩ := hasPrefix_iff.1 hk
  by_cases hs : s = []
  · rwa [hs, append_nil]
  · have hlt := lt_append_left pre [] s
    rw [append_nil, nil_lt hs] at hlt
    exact lt_trans ha hlt

lemma remaining_start (t : Tree) (d after : Str) (hpre : pre ≠ []) :
    remaining t d pre (if lt after pre then [] else after) = remaining t d pre after := by
  split_ifs with hlt
  · refine filter_congr fun o _ => ?_
    rcases hk : hasPrefix o.key pre with _ | _
    · rfl
    · rw [lt_of_hasPrefix hk hlt, lt_of_hasPrefix hk (nil_lt hpre)]
  · rfl

lemma remaining_after {after : Str} {m : ℕ} {last : ObjectInfo}
    (hlast : ((remaining t d pre after).take m).getLast? = some last) :
    remaining t d pre last.key = (remaining t d pre after).drop m := by
  have hmem : last ∈ (remaining t d pre after).take m := mem_of_getLast? hlast
  have hafter : lt after last.key = true := by
    have := (mem_filter.1 (mem_of_mem_take hmem)).2
    rw [Bool.and_eq_true] at this
    exact this.2
  have hsub : remaining t d pre last.key
      = (remaining t d pre after).filter fun o => lt last.key o.key := by
    rw [remaining, remaining, filter_filter]
    refine filter_congr fun o _ => ?_
    rcases hlt : lt last.key o.key with _ | _
    · rw [Bool.and_false, Bool.false_and]
    · rw [lt_trans hafter hlt, Bool.true_and]
  have hpair := remaining_pairwise t d pre after
  obtain ⟨init, hinit⟩ := getLast?_eq_some_iff.1 hlast
  rw [hsub]
  conv_lhs => rw [← take_append_drop m (remaining t d pre after)]
  rw [← take_append_drop m (remaining t d pre after), hinit, pairwise_append,
    pairwise_append] at hpair
  obtain ⟨⟨-, -, hbefore⟩, -, hrest⟩ := hpair
  rw [filter_append, hinit, filter_eq_nil_iff.2, nil_append,
    filter_eq_self.2]
  · exact fun o ho => hrest last (mem_append_right _ (mem_singleton_self _)) o ho
  · intro o ho
    rcases mem_append.1 ho with ho | ho
    · rw [lt_asymm (hbefore o ho last (mem_singleton_self _))]
      exact Bool.false_ne_true
    · rw [mem_singleton.1 ho, lt_irrefl]
      exact Bool.false_ne_true

lemma list_page (now : ℤ) (t : Tree) (name : Str) (hd : DeviceName d) (after : Str) {m : ℤ}
    (hm : 0 < m ∧ m ≤ 1000) :
    Local.list (.healthy now) t (d ++ [47] ++ name) after m
      = .ok ((remaining t d (d ++ [47] ++ name) after).take m.toNat,
          decide (m.toNat < (remaining t d (d ++ [47] ++ name) after).length)) := by
  have hcut : cut (d ++ [47] ++ name) 47 = (d, name, true) := by
    rw [append_assoc]
    exact cut_append hd.slash name
  have hbs : d.contains 92 = false := by
    rw [Bool.eq_false_iff, ne_eq, contains_iff_mem]
    exact hd.backslash
  have hdirs : listDirs (.healthy now) t (d ++ [47] ++ name) = .ok ([d], name) := by
    simp only [listDirs, hcut, hd.segment, hd.reserved, hbs, decide_false, Bool.or_self,
      Bool.false_eq_true, if_true, if_false]
  have hctx : (Faults.healthy now).ctxErr = false := rfl
  have hmax : ¬ (m ≤ 0 ∨ (maxKeys : ℤ) < m) := by
    rw [maxKeys]
    omega
  rw [Local.list, hctx, if_neg Bool.false_ne_true, hdirs, if_neg hmax]
  have hread : ((Faults.healthy now).readDir || (Faults.healthy now).nameTooLong d) = false :=
    decide_eq_false (Nat.not_lt.2 hd.short)
  change listLoop (.healthy now) t name after m.toNat [d] [] = _
  rw [listLoop, hread, if_neg Bool.false_ne_true, remaining, Tree.deviceObjects]
  rcases t[d]? with _ | ents
  · have hnil : ((none : Option (Std.ExtTreeMap Str Entry)).getD ∅).toList.filterMap (entryInfo d)
        = [] := rfl
    simp only [hnil, filter_nil, take_nil, length_nil, Nat.not_lt_zero, decide_false,
      listLoop]
  · have hpage : listEnts (.healthy now) d name after m.toNat ents.toList [] = _ :=
      listEnts_page d name ents.toList (Nat.zero_le _)
    simp only [nil_append] at hpage
    obtain ⟨all, hall⟩ : ∃ all, all = (ents.toList.filterMap (entryInfo d)).filter fun o =>
      hasPrefix o.key (d ++ [47] ++ name) && lt after o.key := ⟨_, rfl⟩
    rw [← hall] at hpage
    simp only [hpage, Option.getD_some, ← hall]
    by_cases hfull : m.toNat < all.length
    · simp only [if_pos hfull, decide_eq_true hfull]
    · simp only [if_neg hfull, decide_eq_false hfull, listLoop,
        take_of_length_le (Nat.not_lt.1 hfull)]

lemma collect_page {f : Faults} {after : Str} {m : ℤ} {rest : List ObjectInfo}
    (h : Local.list f t pre after m = .ok (rest.take m.toNat, decide (m.toNat < rest.length)))
    (hm : 0 < m) :
    ∃ next, collect f t pre after m
        = .ok (rest.take m.toNat, next, decide (m.toNat < rest.length)) ∧
      (decide (m.toNat < rest.length) = true →
        ∃ last, (rest.take m.toNat).getLast? = some last ∧ next = last.key) := by
  simp only [collect, h, bind, Except.bind]
  rcases hlast : (rest.take m.toNat).getLast? with _ | last
  · have hnil := getLast?_eq_none_iff.1 hlast
    have hempty : rest = [] := (take_eq_nil_iff.1 hnil).resolve_left (by omega)
    refine ⟨after, ?_, fun hlt => ?_⟩
    · rw [hempty, take_nil, length_nil, decide_eq_false (Nat.not_lt_zero _)]
    · rw [hempty] at hlt
      exact absurd (of_decide_eq_true hlt) (Nat.not_lt_zero _)
  · exact ⟨last.key, rfl, fun _ => ⟨last, rfl, rfl⟩⟩

end Pages

section Follow

variable (g : Config) (now : ℤ) (t : Tree) (r : Request) (d : Str)

/-- The prefix a request lists: the asked one if it is the device's. -/
def effectivePrefix (query : Url.Values) : Str :=
  if Strings.hasPrefix (Url.get query (str "prefix")) (d ++ [47]) then
    Url.get query (str "prefix") else d ++ [47]

/-- An object as the request wants it shown. -/
def shown (query : Url.Values) : ObjectInfo → ObjectEntry :=
  objectEntry g (Strings.equalFold (Url.get query (str "encoding-type")) (str "url"))
    (Strings.equalFold (Url.get query (str "fetch-owner")) (str "true"))

def withToken (query : Url.Values) (token : Str) : Url.Values :=
  query.insert (str "continuation-token") [token]

/-- What a client gets that follows the tokens for at most so many pages. -/
def follow : ℕ → Url.Values → Option (List ObjectEntry)
  | 0, _ => none
  | n + 1, query =>
    match (list g (.healthy now) t r query (d ++ [47])).body with
    | .listing res =>
      if res.isTruncated then
        (follow n (withToken query res.nextContinuationToken)).map (res.contents ++ ·)
      else some res.contents
    | _ => none

def startOf (query : Url.Values) : Option Str :=
  if Url.get query (str "continuation-token") ≠ [] then
    decodeToken (Url.get query (str "continuation-token")) (d ++ [47])
  else some (Url.get query (str "start-after"))

variable {d}

lemma effectivePrefix_eq (query : Url.Values) :
    ∃ name, effectivePrefix d query = d ++ [47] ++ name := by
  rw [effectivePrefix]
  split_ifs with h
  · obtain ⟨name, hname⟩ := hasPrefix_iff.1 h
    exact ⟨name, hname.symm⟩
  · exact ⟨[], (append_nil _).symm⟩

lemma listMaxKeys_bounds (query : Url.Values) :
    0 < listMaxKeys query ∧ listMaxKeys query ≤ 1000 := by
  rw [listMaxKeys]
  split
  · split_ifs with h
    · exact ⟨h.1, h.2.le⟩
    · exact ⟨by decide, le_refl _⟩
  · exact ⟨by decide, le_refl _⟩

lemma get_withToken (query : Url.Values) (token k : Str) :
    Url.get (withToken query token) k
      = if k = str "continuation-token" then token else Url.get query k := by
  rw [Url.get, withToken, Std.ExtTreeMap.getD_insert, Url.get]
  by_cases hk : k = str "continuation-token"
  · subst hk
    simp
  · rw [if_neg, if_neg hk]
    exact fun h => hk (Std.LawfulEqCmp.eq_of_compare h).symm

lemma list_response (hd : DeviceName d) {query : Url.Values} {after : Str}
    (hstart : startOf d query = some after) :
    ∃ res, (list g (.healthy now) t r query (d ++ [47])).body = .listing res ∧
      res.contents = ((remaining t d (effectivePrefix d query) after).take
        (listMaxKeys query).toNat).map (shown g query) ∧
      res.isTruncated = decide ((listMaxKeys query).toNat
        < (remaining t d (effectivePrefix d query) after).length) ∧
      (res.isTruncated = true → ∃ last, ((remaining t d (effectivePrefix d query) after).take
        (listMaxKeys query).toNat).getLast? = some last ∧
        res.nextContinuationToken = encodeToken (d ++ [47]) last.key) := by
  obtain ⟨name, hname⟩ := effectivePrefix_eq (d := d) query
  have hbounds := listMaxKeys_bounds query
  have hpage := list_page now t name hd
    (if lt after (effectivePrefix d query) then [] else after) hbounds
  rw [← hname, remaining_start t d after (by rw [hname]; simp)] at hpage
  obtain ⟨rest, hrest⟩ : ∃ rest, rest = remaining t d (effectivePrefix d query) after := ⟨_, rfl⟩
  rw [← hrest] at hpage ⊢
  have hinside : ((rest.take (listMaxKeys query).toNat).any fun o =>
      !hasPrefix o.key (d ++ [47])) = false := by
    rw [any_eq_false]
    intro o ho
    have hmem := (mem_filter.1 (hrest ▸ mem_of_mem_take ho)).1
    obtain ⟨n, obj, -, rfl⟩ := mem_deviceObjects.1 hmem
    rw [hasPrefix_iff.2 (prefix_append _ n)]
    exact Bool.false_ne_true
  obtain ⟨next, hcollect, hnext⟩ := collect_page hpage hbounds.1
  rw [startOf] at hstart
  rw [effectivePrefix] at hcollect
  simp only [list, hstart, hcollect, hinside, Bool.false_eq_true, if_false]
  refine ⟨_, rfl, rfl, rfl, fun htrunc => ?_⟩
  obtain ⟨last, hlast, hkey⟩ := hnext htrunc
  refine ⟨last, hlast, ?_⟩
  simp only [if_pos htrunc, hkey]

lemma follow_eq (hd : DeviceName d) : ∀ (n : ℕ) (query : Url.Values) (after : Str),
    startOf d query = some after →
    (remaining t d (effectivePrefix d query) after).length < n →
    follow g now t r d n query
      = some ((remaining t d (effectivePrefix d query) after).map (shown g query))
  | 0, _, _, _, hn => absurd hn (Nat.not_lt_zero _)
  | n + 1, query, after, hstart, hn => by
    obtain ⟨res, hbody, hcontents, htrunc, hnext⟩ := list_response g now t r hd hstart
    have hbounds := listMaxKeys_bounds query
    rw [follow, hbody]
    simp only
    split_ifs with hmore
    · obtain ⟨last, hlast, htoken⟩ := hnext hmore
      have hstart' : startOf d (withToken query res.nextContinuationToken) = some last.key := by
        rw [startOf, get_withToken, if_pos rfl, htoken, if_pos (encodeToken_ne_nil _ _),
          decodeToken_encodeToken, if_pos rfl]
        rw [mem_append, not_or]
        exact ⟨hd.nul, by decide⟩
      have hstart : effectivePrefix d (withToken query res.nextContinuationToken)
          = effectivePrefix d query := by
        have hne : str "prefix" ≠ str "continuation-token" := by decide
        rw [effectivePrefix, get_withToken, if_neg hne, effectivePrefix]
      have hshown : shown g (withToken query res.nextContinuationToken) = shown g query := by
        have hne : str "encoding-type" ≠ str "continuation-token" := by decide
        have hne' : str "fetch-owner" ≠ str "continuation-token" := by decide
        rw [shown, get_withToken, if_neg hne, get_withToken, if_neg hne', shown]
      have hafter := remaining_after hlast
      have hlong : (listMaxKeys query).toNat
          < (remaining t d (effectivePrefix d query) after).length :=
        of_decide_eq_true (htrunc.symm.trans hmore)
      have ih := follow_eq hd n _ last.key hstart' (by
        rw [hstart, hafter, length_drop]
        omega)
      rw [ih, Option.map_some, hcontents, hstart, hafter, hshown, ← map_append,
        take_append_drop]
    · have hshort : (remaining t d (effectivePrefix d query) after).length
          ≤ (listMaxKeys query).toNat := by
        rw [htrunc, decide_eq_true_eq, not_lt] at hmore
        exact hmore
      rw [hcontents, take_of_length_le hshort]

lemma deviceName_sample : DeviceName (str "a") :=
  ⟨by decide, by decide, by decide, by decide, by decide, by decide⟩

end Follow

end Warphold.Gateway
