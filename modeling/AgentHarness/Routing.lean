import AgentHarness.MultiAgent

/-!
# Routing — the coordinator and the planners on one query

The coordinator goes through all of `ROUTING_RULE_SOURCE`, `KeywordPlanner` through the rules with a tool, and
`MultiToolPlanner` through a table of its own.  A rule that is found first is found first among those with a tool, if it
has one (`find?_kept`); the keywords of the first rule are the ones of the other table (`compound_keywords`).
-/

namespace AgentHarness

/-- What is found first, and kept by a filter, is found first in what the filter keeps. -/
theorem find?_kept {α : Type} {p q : α → Bool} {l : List α} {a : α} (h : l.find? p = some a) (ha : q a = true) :
    (l.filter q).find? p = some a := by
  induction l with
  | nil => cases h
  | cons b l ih =>
    rw [List.find?_cons] at h
    cases hb : p b with
    | true =>
      rw [hb] at h
      obtain rfl := Option.some.inj h
      rw [List.filter_cons_of_pos ha, List.find?_cons_of_pos hb]
    | false =>
      rw [hb] at h
      cases hq : q b with
      | true =>
        rw [List.filter_cons_of_pos hq, List.find?_cons_of_neg (by simp [hb])]
        exact ih h
      | false =>
        rw [List.filter_cons_of_neg (by simp [hq])]
        exact ih h

/-- What is not found is not found in what a filter keeps. -/
theorem find?_filter_none {α : Type} {p q : α → Bool} {l : List α} (h : l.find? p = none) :
    (l.filter q).find? p = none := by
  rw [List.find?_eq_none] at h ⊢
  intro a ha
  exact h a (List.mem_filter.mp ha).1

/-! ## The rule of compound queries -/

/-- The first rule of `ROUTING_RULE_SOURCE`. -/
def compoundRule : RoutingRule :=
  ⟨["GMV环比", "环比增长", "退款规则", "退款政策", "促销规则"], none, "", "compound_tool_query", "multitool", none⟩

theorem routingRuleSource_eq : routingRuleSource = compoundRule :: routingRuleSource.tail := rfl

/-- No other rule selects the mode. -/
theorem selectedMode_tail : ∀ rule ∈ routingRuleSource.tail, rule.selectedMode ≠ "multitool" := by decide

/-- Its keywords are the ones of `MultiToolPlanner`. -/
theorem compound_keywords : compoundRule.keywords = MultiToolPlanner.rules.flatMap Prod.fst := rfl

theorem matched_of_mem : ∀ rule ∈ MultiToolPlanner.rules, rule.2.matched = true := by
  unfold MultiToolPlanner.rules
  simp [MultiToolPlanner.gmvMomPlan, MultiToolPlanner.refundRulePlan, MultiToolPlanner.promotionRulePlan]

/-- A plan matches the queries of the compound rule. -/
theorem multiToolPlan_matched {query : String} :
    (MultiToolPlanner.plan query).matched = true ↔ matchesQuery query compoundRule = true := by
  have hany : matchesQuery query compoundRule =
      MultiToolPlanner.rules.any fun rule => rule.1.any (occursIn · query) := by
    unfold matchesQuery
    rw [compound_keywords, List.any_flatMap]
  rw [hany]
  unfold MultiToolPlanner.plan
  cases hfind : MultiToolPlanner.rules.find? fun rule => rule.1.any (occursIn · query) with
  | some rule =>
    have hoccurs := List.find?_some hfind
    exact iff_of_true (matched_of_mem rule (List.mem_of_find?_eq_some hfind))
      (List.any_eq_true.mpr ⟨rule, List.mem_of_find?_eq_some hfind, hoccurs⟩)
  | none =>
    refine iff_of_false Bool.false_ne_true fun hrule => ?_
    obtain ⟨rule, hmem, hoccurs⟩ := List.any_eq_true.mp hrule
    exact List.find?_eq_none.mp hfind rule hmem hoccurs

/-! ## The coordinator -/

namespace CoordinatorAgent

variable {c : CoordinatorAgent} {query : String} {rule : RoutingRule} {matched : List String}

theorem matchRule_some (h : c.matchRule query = some (rule, matched)) :
    routingRuleSource.find? (fun r => ruleEnabled c.settings r && matchesQuery query r) = some rule := by
  obtain ⟨found, hfind, heq⟩ := Option.map_eq_some_iff.mp h
  rw [hfind, (Prod.mk.inj heq).1]

/-- The rule that is found selects `multitool` where the compound rule is the one. -/
theorem selects_multitool :
    (∃ rule matched, c.matchRule query = some (rule, matched) ∧ rule.selectedMode = "multitool") ↔
      matchesQuery query compoundRule = true := by
  have henabled : (ruleEnabled c.settings compoundRule && matchesQuery query compoundRule) =
      matchesQuery query compoundRule := rfl
  constructor
  · rintro ⟨rule, matched, hrule, hmode⟩
    have hfind := matchRule_some hrule
    rw [routingRuleSource_eq, List.find?_cons, henabled] at hfind
    cases hfirst : matchesQuery query compoundRule with
    | true => rfl
    | false =>
      rw [hfirst] at hfind
      exact absurd hmode (selectedMode_tail rule (List.mem_of_find?_eq_some hfind))
  · intro hfirst
    refine ⟨compoundRule, compoundRule.keywords.filter (occursIn · query), ?_, rfl⟩
    unfold matchRule
    rw [routingRuleSource_eq, List.find?_cons, henabled, hfirst]
    rfl

/-- What the router says of a query, and what the planners do with it. -/
structure Agrees (c : CoordinatorAgent) (query : String) : Prop where
  /-- the tool that the rule names is the one that is planned -/
  tool : ∀ rule matched tool, c.matchRule query = some (rule, matched) → rule.toolName = some tool →
    (KeywordPlanner.plan c.settings query).matched = true ∧
      (KeywordPlanner.plan c.settings query).toolName = some tool
  unmatched : c.matchRule query = none → (KeywordPlanner.plan c.settings query).matched = false
  multitool : (∃ rule matched, c.matchRule query = some (rule, matched) ∧ rule.selectedMode = "multitool") ↔
    (MultiToolPlanner.plan query).matched = true

/-- **The router and the planners agree** on every query, for every setting of the switches. -/
theorem router_agrees (c : CoordinatorAgent) (query : String) : Agrees c query where
  tool rule matched tool hrule htool := by
    have hfind := find?_kept (q := fun r => r.toolName.isSome) (matchRule_some hrule) (by rw [htool]; rfl)
    unfold KeywordPlanner.plan KeywordPlanner.routingRules
    rw [hfind]
    exact ⟨rfl, htool⟩
  unmatched hnone := by
    have hfind := find?_filter_none (q := fun r => r.toolName.isSome) (Option.map_eq_none_iff.mp hnone)
    unfold KeywordPlanner.plan KeywordPlanner.routingRules
    rw [hfind]
  multitool := selects_multitool.trans multiToolPlan_matched.symm

/-- A query with keywords of three rules goes to the first of them. -/
example : ((⟨fun _ => true, fun _ => .error ""⟩ : CoordinatorAgent).matchRule "模拟退款 GMV 订单").map
    (fun found => found.1.toolName) = some (some "simulate_refund_order") := by decide

end CoordinatorAgent

end AgentHarness
