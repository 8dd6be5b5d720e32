import GlobalProtect.Portal.ParseGateways
import Mathlib.Data.List.MinMax

/-! # The preferred gateway comes first

`preferred` says which gateway is wanted: the first that attains the least priority of the rules for
the region, or of the gateways if there is no rule. `find_preferred_gateway` finds it with two nested
loops (`preferred_eq`).

`sort_gateways` then looks for the first gateway with its name. If names are repeated that can be
another one, which is moved to the front instead (`ordering_iff`, `namesake_moved`). -/

namespace GlobalProtect.Portal

open Api Lib Lib.Xml

/-! ### The wanted gateway -/

def Qualifies (region : String) (rule : PriorityRule) : Prop :=
  (rule.name = region ∨ rule.name = "Any") ∧ rule.priority < u32Max

instance (region : String) (rule : PriorityRule) : Decidable (Qualifies region rule) :=
  inferInstanceAs (Decidable (_ ∧ _))

/-- The gateway attains the least priority over all rules that qualify, or else over all gateways. -/
def Attains (region : String) (gateways : List Gateway) (g : Gateway) : Prop :=
  if ∃ g' ∈ gateways, ∃ rule ∈ g'.priorityRules, Qualifies region rule then
    ∃ rule ∈ g.priorityRules, Qualifies region rule ∧
      ∀ g' ∈ gateways, ∀ rule' ∈ g'.priorityRules, Qualifies region rule' →
        rule.priority ≤ rule'.priority
  else ∀ g' ∈ gateways, g.priority ≤ g'.priority

instance (region : String) (gateways : List Gateway) : DecidablePred (Attains region gateways) :=
  fun g => by
    delta Attains
    infer_instance

def preferred (region : String) (gateways : List Gateway) : Option Gateway :=
  gateways.find? fun g => Attains region gateways g

/-! ### Scans for the least -/

section

variable {α : Type*} (key : α → ℕ)

theorem argmin_eq_find? [DecidableEq α] (l : List α) :
    l.argmin key = l.find? fun a => ∀ b ∈ l, key a ≤ key b := by
  cases hmin : l.argmin key with
  | none =>
    rw [List.argmin_eq_none.mp hmin]
    rfl
  | some m =>
    obtain ⟨hm, hle, hfirst⟩ := List.mem_argmin_iff.mp hmin
    obtain ⟨front, rest, hl, hfront⟩ := List.eq_append_cons_of_mem hm
    symm
    rw [List.find?_eq_some_iff_append]
    refine ⟨by simpa using hle, front, rest, hl, fun a ha => ?_⟩
    -- another least one in front would be the first
    simp only [Bool.not_eq_true', decide_eq_false_iff_not]
    intro hleast
    have hidx := hfirst a (by simp [hl, ha]) (hleast m hm)
    have hma : l.idxOf m = front.length := by
      rw [hl, List.idxOf_append_of_notMem hfront, List.idxOf_cons_self, Nat.add_zero]
    have haa : l.idxOf a < front.length := by
      rw [hl, List.idxOf_append_of_mem ha]
      exact List.idxOf_lt_length_of_mem ha
    omega

theorem foldl_below (top : ℕ) (l : List α) :
    l.foldl (fun best a => if key a < best.2 then (some a, key a) else best) (none, top) =
      match l.argmin key with
      | none => (none, top)
      | some m => if key m < top then (some m, key m) else (none, top) := by
  induction l using List.reverseRecOn with
  | nil => rfl
  | append_singleton l a ih =>
    rw [List.foldl_append, ih, List.argmin_concat]
    cases l.argmin key with
    | none => rfl
    | some m =>
      simp only [List.foldl_cons, List.foldl_nil]
      by_cases hm : key m < top
      · rw [if_pos hm]
        by_cases ha : key a < key m
        · simp only [ha, if_true]
          rw [if_pos (ha.trans hm)]
        · simp [ha, hm]
      · rw [if_neg hm]
        by_cases ha : key a < key m
        · simp [ha]
        · have htop : ¬ key a < top := by omega
          simp [ha, htop, hm]

theorem foldl_least (first : α) (others : List α) :
    (first :: others).argmin key =
      some (others.foldl (fun best a => if key a < key best then a else best) first) := by
  induction others using List.reverseRecOn with
  | nil => rfl
  | append_singleton others a ih =>
    rw [← List.cons_append, List.argmin_concat, ih, List.foldl_append]
    show (if key a < key _ then some a else some _) = some (if _ then _ else _)
    split_ifs <;> rfl

end

/-! ### The loops -/

variable {region : String} {gateways : List Gateway}

/-- The least priority of the rules that qualify, `u32::MAX` if there is none. -/
def leastRule (region : String) : List PriorityRule → ℕ
  | [] => u32Max
  | rule :: rules =>
    if Qualifies region rule then min rule.priority (leastRule region rules)
    else leastRule region rules

theorem leastRule_le_max (rules : List PriorityRule) : leastRule region rules ≤ u32Max := by
  induction rules with
  | nil => exact Nat.le_refl _
  | cons rule rules ih =>
    unfold leastRule
    split_ifs
    · exact (Nat.min_le_right _ _).trans ih
    · exact ih

theorem leastRule_le {rules : List PriorityRule} {rule : PriorityRule} (h : rule ∈ rules)
    (hrule : Qualifies region rule) : leastRule region rules ≤ rule.priority := by
  induction rules with
  | nil => cases h
  | cons rule' rules ih =>
    unfold leastRule
    rcases List.mem_cons.mp h with rfl | h
    · rw [if_pos hrule]
      exact Nat.min_le_left _ _
    · split_ifs
      · exact (Nat.min_le_right _ _).trans (ih h)
      · exact ih h

theorem exists_leastRule {rules : List PriorityRule} (h : leastRule region rules < u32Max) :
    ∃ rule ∈ rules, Qualifies region rule ∧ rule.priority = leastRule region rules := by
  induction rules with
  | nil => exact absurd h (Nat.lt_irrefl _)
  | cons rule rules ih =>
    unfold leastRule at h ⊢
    split_ifs at h ⊢ with hrule
    · by_cases hle : rule.priority ≤ leastRule region rules
      · exact ⟨rule, List.mem_cons_self, hrule, (Nat.min_eq_left hle).symm⟩
      · have hmin := Nat.min_eq_right (Nat.le_of_not_le hle)
        obtain ⟨rule', hmem, hrule', heq⟩ := ih (hmin ▸ h)
        exact ⟨rule', List.mem_cons_of_mem _ hmem, hrule', heq.trans hmin.symm⟩
    · obtain ⟨rule', hmem, hrule', heq⟩ := ih h
      exact ⟨rule', List.mem_cons_of_mem _ hmem, hrule', heq⟩

theorem scanRules_eq (g : Gateway) (best : Option Gateway × ℕ) (h : best.2 ≤ u32Max) :
    PortalConfig.scanRules region g best =
      if leastRule region g.priorityRules < best.2 then
        (some g, leastRule region g.priorityRules)
      else best := by
  unfold PortalConfig.scanRules
  generalize g.priorityRules = rules
  induction rules generalizing best with
  | nil => rw [List.foldl_nil, leastRule, if_neg (Nat.not_lt.mpr h)]
  | cons rule rules ih =>
    rw [List.foldl_cons]
    by_cases hrule : (rule.name = region ∨ rule.name = "Any") ∧ rule.priority < best.2
    · have hq : Qualifies region rule := ⟨hrule.1, hrule.2.trans_le h⟩
      have hmin : min rule.priority (leastRule region rules) < best.2 :=
        (Nat.min_le_left _ _).trans_lt hrule.2
      rw [if_pos hrule, ih _ hq.2.le, leastRule, if_pos hq, if_pos hmin]
      by_cases hlt : leastRule region rules < rule.priority
      · rw [if_pos hlt, Nat.min_eq_right hlt.le]
      · rw [if_neg hlt, Nat.min_eq_left (Nat.not_lt.mp hlt)]
    · rw [if_neg hrule, ih _ h, leastRule]
      by_cases hq : Qualifies region rule
      · have hle : best.2 ≤ rule.priority := Nat.not_lt.mp fun hlt => hrule ⟨hq.1, hlt⟩
        rw [if_pos hq]
        by_cases hlt : leastRule region rules < best.2
        · rw [if_pos hlt, Nat.min_eq_right (by omega), if_pos hlt]
        · rw [if_neg hlt, if_neg (by omega)]
      · rw [if_neg hq]

theorem foldl_scanRules (gateways : List Gateway) (best : Option Gateway × ℕ)
    (h : best.2 ≤ u32Max) :
    gateways.foldl (fun best g => PortalConfig.scanRules region g best) best =
      gateways.foldl (fun best g => if leastRule region g.priorityRules < best.2 then
        (some g, leastRule region g.priorityRules) else best) best := by
  induction gateways generalizing best with
  | nil => rfl
  | cons g gateways ih =>
    rw [List.foldl_cons, List.foldl_cons, scanRules_eq g best h]
    refine ih _ ?_
    split_ifs
    · exact leastRule_le_max _
    · exact h

theorem attains_of_rules {m g : Gateway} (hm : m ∈ gateways)
    (hlow : leastRule region m.priorityRules < u32Max) :
    Attains region gateways g ↔
      ∀ g' ∈ gateways, leastRule region g.priorityRules ≤ leastRule region g'.priorityRules := by
  obtain ⟨rule, hrule, hq, -⟩ := exists_leastRule hlow
  unfold Attains
  rw [if_pos ⟨m, hm, rule, hrule, hq⟩]
  constructor
  · rintro ⟨rule, hrule, hq, hmin⟩ g' hg'
    have hle := leastRule_le hrule hq
    by_cases hg'low : leastRule region g'.priorityRules < u32Max
    · obtain ⟨rule', hrule', hq', heq⟩ := exists_leastRule hg'low
      have := hmin g' hg' rule' hrule' hq'
      omega
    · have := hq.2
      omega
  · intro h
    obtain ⟨rule, hrule, hq, heq⟩ := exists_leastRule ((h m hm).trans_lt hlow)
    refine ⟨rule, hrule, hq, fun g' hg' rule' hrule' hq' => ?_⟩
    have := h g' hg'
    have := leastRule_le hrule' hq'
    omega

theorem attains_of_no_rules {g : Gateway}
    (hnone : ∀ g' ∈ gateways, u32Max ≤ leastRule region g'.priorityRules) :
    Attains region gateways g ↔ ∀ g' ∈ gateways, g.priority ≤ g'.priority := by
  unfold Attains
  rw [if_neg]
  rintro ⟨g', hg', rule, hrule, hq⟩
  have := hnone g' hg'
  have := leastRule_le hrule hq
  have := hq.2
  omega

theorem preferred_eq (c : PortalConfig) (region : String) :
    preferred region c.gateways = some (c.findPreferredGateway region) := by
  have hscan : (c.gateways.foldl (fun best g => PortalConfig.scanRules region g best)
      (none, u32Max)) = _ :=
    (foldl_scanRules c.gateways (none, u32Max) (Nat.le_refl _)).trans
      (foldl_below (fun g => leastRule region g.priorityRules) u32Max c.gateways)
  obtain ⟨m, hargmin⟩ : ∃ m, c.gateways.argmin (fun g => leastRule region g.priorityRules) = some m :=
    ⟨_, foldl_least _ c.first c.others⟩
  obtain ⟨hm, hleast, -⟩ := List.mem_argmin_iff.mp hargmin
  unfold preferred PortalConfig.findPreferredGateway
  rw [hscan, hargmin]
  by_cases hlow : leastRule region m.priorityRules < u32Max
  · simp only [attains_of_rules hm hlow, hlow, if_true, Option.getD_some]
    rw [← hargmin, argmin_eq_find?]
  · have hnone : ∀ g' ∈ c.gateways, u32Max ≤ leastRule region g'.priorityRules :=
      fun g' hg' => (Nat.not_lt.mp hlow).trans (hleast g' hg')
    simp only [attains_of_no_rules hnone, hlow, if_false, Option.getD_none]
    rw [← argmin_eq_find?]
    exact foldl_least Gateway.priority c.first c.others

/-! ### Moving it to the front -/

theorem findIdx_append_cons {α : Type*} {p : α → Bool} (xs ys : List α) {a : α}
    (hxs : ∀ x ∈ xs, p x = false) (ha : p a = true) : (xs ++ a :: ys).findIdx p = xs.length := by
  have hlen : xs.findIdx p = xs.length := List.findIdx_eq_length.mpr hxs
  rw [List.findIdx_append, hlen, if_neg (Nat.lt_irrefl _), List.findIdx_cons, ha]
  exact Nat.zero_add _

variable (c : PortalConfig)

theorem sortGateways_cases (region : String) :
    (c.first.name = (c.findPreferredGateway region).name ∧ c.sortGateways region = c) ∨
      ∃ xs g ys, c.others = xs ++ g :: ys ∧ g.name = (c.findPreferredGateway region).name ∧
        (∀ x ∈ c.first :: xs, x.name ≠ (c.findPreferredGateway region).name) ∧
        c.sortGateways region = { c with first := g, others := xs ++ c.first :: ys } := by
  have hmem : c.findPreferredGateway region ∈ c.gateways :=
    List.mem_of_find?_eq_some (preferred_eq c region)
  unfold PortalConfig.sortGateways
  generalize c.findPreferredGateway region = p at hmem ⊢
  by_cases hfirst : c.first.name = p.name
  · refine Or.inl ⟨hfirst, ?_⟩
    have hidx : (c.gateways.findIdx fun g => g.name = p.name) = 0 :=
      findIdx_append_cons [] _ (by simp) (by simpa using hfirst)
    rw [hidx]
  · -- another gateway with the name comes later
    have hlater : p ∈ c.others := by
      rcases List.mem_cons.mp hmem with rfl | h
      · exact absurd rfl hfirst
      · exact h
    have hsome : (c.others.find? fun g => g.name = p.name).isSome :=
      List.find?_isSome.mpr ⟨p, hlater, by simp⟩
    obtain ⟨g, hg⟩ := Option.isSome_iff_exists.mp hsome
    obtain ⟨hname, xs, ys, hothers, hxs⟩ := List.find?_eq_some_iff_append.mp hg
    refine Or.inr ⟨xs, g, ys, hothers, by simpa using hname, ?_, ?_⟩
    · intro x hx
      rcases List.mem_cons.mp hx with rfl | hx
      · exact hfirst
      · simpa using hxs x hx
    · have hidx : (c.gateways.findIdx fun g => g.name = p.name) = xs.length + 1 := by
        rw [PortalConfig.gateways, hothers]
        exact findIdx_append_cons (c.first :: xs) ys (by simpa [hfirst] using hxs) hname
      rw [hidx, hothers]
      simp

theorem sortGateways_perm (region : String) :
    (c.sortGateways region).gateways.Perm c.gateways := by
  rcases sortGateways_cases c region with ⟨-, hsame⟩ | ⟨xs, g, ys, hothers, -, -, hsort⟩
  · rw [hsame]
  · rw [hsort]
    show (g :: (xs ++ c.first :: ys)).Perm (c.first :: c.others)
    rw [hothers]
    exact ((List.perm_middle.cons g).trans (.swap c.first g _)).trans
      (List.perm_middle.symm.cons c.first)

theorem sortGateways_first_name (region : String) :
    (c.sortGateways region).first.name = (c.findPreferredGateway region).name := by
  rcases sortGateways_cases c region with ⟨hname, hsame⟩ | ⟨xs, g, ys, -, hname, -, hsort⟩
  · rw [hsame, hname]
  · rw [hsort, hname]

theorem find?_name (region : String) :
    (c.gateways.find? fun g => g.name = (c.findPreferredGateway region).name) =
      some (c.sortGateways region).first := by
  rcases sortGateways_cases c region with ⟨hname, hsame⟩ | ⟨xs, g, ys, hothers, hname, hxs, hsort⟩
  · rw [hsame, PortalConfig.gateways, List.find?_cons_of_pos (by simpa using hname)]
  · rw [hsort, PortalConfig.gateways, hothers, List.find?_eq_some_iff_append]
    exact ⟨by simpa using hname, c.first :: xs, ys, rfl, by simpa using hxs⟩

theorem attains_congr {l l' : List Gateway} (h : l.Perm l') (g : Gateway) :
    Attains region l g ↔ Attains region l' g := by
  simp only [Attains, h.mem_iff]

theorem findPreferredGateway_sortGateways (region : String) :
    (c.sortGateways region).findPreferredGateway region = c.findPreferredGateway region := by
  rw [← Option.some_inj, ← preferred_eq, ← preferred_eq c, preferred, preferred]
  simp only [attains_congr (sortGateways_perm c region)]
  have hpref := preferred_eq c region
  unfold preferred at hpref
  rcases sortGateways_cases c region with ⟨-, hsame⟩ | ⟨xs, g, ys, hothers, hname, hxs, hsort⟩
  · rw [hsame]
  · rw [hsort, hpref]
    generalize hq : (fun g => decide (Attains region c.gateways g)) = q at hpref ⊢
    simp only [PortalConfig.gateways, hothers] at hpref ⊢
    -- nothing in front of the gateway that is moved is the wanted one
    have hnone : (c.first :: xs).find? q = none := by
      cases hx : (c.first :: xs).find? q with
      | none => rfl
      | some x =>
        rw [← List.cons_append, List.find?_append, hx, Option.some_or] at hpref
        have hmem := List.mem_of_find?_eq_some hx
        rw [Option.some.inj hpref] at hmem
        exact absurd rfl (hxs _ hmem)
    rw [← List.cons_append, List.find?_append, hnone, Option.none_or] at hpref
    rw [List.find?_cons] at hnone hpref ⊢
    cases hg : q g with
    | true => rwa [hg] at hpref
    | false =>
      rw [hg] at hpref
      cases hfirst : q c.first with
      | true => rw [hfirst] at hnone; cases hnone
      | false =>
        rw [hfirst] at hnone
        simp only [List.find?_append, hnone, List.find?_cons, hfirst, Option.none_or, hpref]

theorem sortGateways_idem (region : String) :
    (c.sortGateways region).sortGateways region = c.sortGateways region := by
  rcases sortGateways_cases (c.sortGateways region) region with
    ⟨-, hsame⟩ | ⟨xs, g, ys, -, -, hxs, -⟩
  · exact hsame
  · refine absurd ?_ (hxs _ List.mem_cons_self)
    rw [findPreferredGateway_sortGateways, sortGateways_first_name]

/-- **The wanted gateway comes first** exactly if no other gateway with its name is in front of it.
It is found, the list is permuted, and sorting again changes nothing in any case. -/
theorem ordering_iff (c : PortalConfig) (region : String) :
    (preferred region c.gateways = some (c.findPreferredGateway region) ∧
        (c.sortGateways region).gateways.Perm c.gateways ∧
        preferred region c.gateways = some (c.sortGateways region).first ∧
        (c.sortGateways region).sortGateways region = c.sortGateways region) ↔
      ∀ g, preferred region c.gateways = some g →
        (c.gateways.find? fun g' => g'.name = g.name) = some g := by
  rw [preferred_eq]
  constructor
  · rintro ⟨-, -, hfirst, -⟩ g hg
    cases hg
    rw [find?_name, hfirst]
  · intro h
    have hfirst := h _ rfl
    rw [find?_name] at hfirst
    exact ⟨rfl, sortGateways_perm c region, hfirst.symm, sortGateways_idem c region⟩

/-! ### Repeated names -/

/-- Two gateways without a description. -/
def unnamed : Node :=
  .element "policy" [] [.element "gateways" [] [.element "external" [] [.element "list" [] [
    .element "entry" [("name", "a.example.com")] [.element "priority" [] [.text "2"]],
    .element "entry" [("name", "b.example.com")] [.element "priority" [] [.text "1"]]]]]]

/-- The second gateway is wanted, but the first one has its name. -/
theorem namesake_moved :
    ∃ a b : Gateway, parseGateways unnamed false = some [a, b] ∧
      preferred "US" [a, b] = some b ∧
      (PortalConfig.sortGateways ⟨a, [b], true, none⟩ "US").first = a ∧ a ≠ b :=
  ⟨⟨"", "a.example.com", .external, 2, []⟩, ⟨"", "b.example.com", .external, 1, []⟩,
    by decide +kernel⟩

end GlobalProtect.Portal
