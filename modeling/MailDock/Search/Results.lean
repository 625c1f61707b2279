import MailDock.Repository.Ownership
import MailDock.Search.Listing
import MailDock.Search.Quoting

/-!
# What a search finds

From the text in the search box to the messages that are listed, in every state of the database
that runs of writes lead to.

## Main results

- `acceptedQuery_selects` — an accepted query has a statement, and what its rows are
- `runWrites_listAllMessages` — the list comes to an end with every wanted message of a folder
-/

namespace MailDock

open Relational

section
variable (normalizeForSearch : String → String)

/-- The sub-select that a term of a query becomes. -/
def tokenSelect (token : Bool × String) : TermSelect :=
  if 3 ≤ (normalizeForSearch token.2).toList.length then
    termQuery (escapeFtsTerm (normalizeForSearch token.2)) false
  else termQuery (escapeLikeTerm (normalizeForSearch token.2)) true

/-- The terms of a query of one sign. -/
def signed (excluded : Bool) (tokens : List (Bool × String)) : List (Bool × String) :=
  tokens.filter fun token => token.1 == excluded

namespace SearchPlan

/-- The terms of the plan that have one sign. -/
def signedTerms (plan : SearchPlan) (excluded : Bool) : List TermSelect :=
  if excluded then plan.negativeTerms else plan.positiveTerms

theorem signedTerms_addTerm (plan : SearchPlan) (excluded : Bool) (token : Bool × String) :
    ((plan.addTerm token.1 (normalizeForSearch token.2)).signedTerms excluded).Perm
      (plan.signedTerms excluded ++
        if token.1 = excluded then [tokenSelect normalizeForSearch token] else []) := by
  obtain ⟨sign,term⟩ := token
  cases excluded <;> cases sign <;>
    by_cases hlength : 3 ≤ (normalizeForSearch term).toList.length <;>
      simp [signedTerms,addTerm,positiveTerms,negativeTerms,tokenSelect,hlength]
  -- a long term stands in front of the short ones
  all_goals exact (List.perm_append_singleton _ _).symm.append_left _

theorem signedTerms_addTerms (start : SearchPlan) (excluded : Bool)
    (tokens : List (Bool × String)) :
    ((start.addTerms normalizeForSearch tokens).signedTerms excluded).Perm
      (start.signedTerms excluded ++
        (signed excluded tokens).map (tokenSelect normalizeForSearch)) := by
  induction tokens generalizing start with
  | nil => simp [addTerms,signed]
  | cons token tokens ih =>
    refine (ih (start.addTerm token.1 (normalizeForSearch token.2))).trans ?_
    refine ((start.signedTerms_addTerm normalizeForSearch excluded token).append_right _).trans ?_
    rw [List.append_assoc]
    refine List.Perm.append_left _ ?_
    by_cases hsign : token.1 = excluded
    · simp [signed,hsign]
    · simp [signed,hsign]

theorem mode_addTerms (start : SearchPlan) (tokens : List (Bool × String)) :
    (start.addTerms normalizeForSearch tokens).mode = start.mode := by
  induction tokens generalizing start with
  | nil => rfl
  | cons token tokens ih =>
    refine (ih (start.addTerm token.1 (normalizeForSearch token.2))).trans ?_
    unfold addTerm
    split_ifs <;> rfl

/-- With at most one negative term, the statement is the positive terms without it. -/
theorem rows_of_one_exclusion {plan : SearchPlan} {p : CompoundSelect} (index : SearchIndex)
    (hp : CompoundSelect.join plan.operator plan.positiveTerms = some p)
    (hone : plan.negativeTerms.length ≤ 1) :
    ∃ e, plan.matchingExpression = some e ∧ ∀ id, id ∈ e.rows index ↔
      id ∈ p.rows index ∧ ∀ s ∈ plan.negativeTerms, id ∉ s.rows index := by
  cases hnegative : plan.negativeTerms with
  | nil =>
    refine ⟨p,by rw [matchingExpression,hnegative,hp]; rfl,fun id => ?_⟩
    simp
  | cons s rest =>
    obtain rfl : rest = [] := by
      rw [hnegative,List.length_cons] at hone
      exact List.length_eq_zero_iff.mp (by omega)
    refine ⟨p.except ⟨s,[]⟩,by rw [matchingExpression,hnegative,hp]; rfl,fun id => ?_⟩
    rw [CompoundSelect.rows_except]
    simp

end SearchPlan

/-- The terms of an accepted query are those of its tokens, the long ones in front. -/
theorem signedTerms_accepted {mode : SearchMode} {plan : SearchPlan}
    {tokens : List (Bool × String)}
    (hplan : plan = ({ mode := mode } : SearchPlan).addTerms normalizeForSearch tokens)
    (excluded : Bool) : (plan.signedTerms excluded).Perm
      ((signed excluded tokens).map (tokenSelect normalizeForSearch)) := by
  have hperm := ({ mode := mode } : SearchPlan).signedTerms_addTerms normalizeForSearch excluded
    tokens
  rw [← hplan] at hperm
  cases excluded <;> exact hperm

/-- A plan with an included term has a statement. -/
theorem SearchPlan.exists_matchingExpression {plan : SearchPlan} {p : CompoundSelect}
    (hp : CompoundSelect.join plan.operator plan.positiveTerms = some p) :
    ∃ e, plan.matchingExpression = some e := by
  cases hnegative : CompoundSelect.join .union plan.negativeTerms with
  | none => exact ⟨p,by rw [matchingExpression,hnegative,hp]⟩
  | some n => exact ⟨p.except n,by rw [matchingExpression,hnegative,hp]⟩

/-- Every query that is accepted has an included term and a statement.  Unless it excludes two
terms, the statement selects the messages in which all its included terms are found, or one of
them, and the excluded one is not. -/
theorem acceptedQuery_selects (index : SearchIndex) {text : String} {mode : SearchMode}
    {plan : SearchPlan} (h : parseQuery normalizeForSearch text mode = .ok plan) :
    ∃ tokens, tokenize text = .ok tokens ∧ signed false tokens ≠ [] ∧
      (∃ e, plan.matchingExpression = some e) ∧
      ((signed true tokens).length ≤ 1 →
        ∃ e, plan.matchingExpression = some e ∧ ∀ id, id ∈ e.rows index ↔
          (mode = .and → ∀ token ∈ signed false tokens,
            id ∈ (tokenSelect normalizeForSearch token).rows index) ∧
          (mode = .or → ∃ token ∈ signed false tokens,
            id ∈ (tokenSelect normalizeForSearch token).rows index) ∧
          ∀ token ∈ signed true tokens,
            id ∉ (tokenSelect normalizeForSearch token).rows index) := by
  have hpositive := parseQuery_positive h
  obtain ⟨tokens,htokens,hplan⟩ := parseQuery_tokens normalizeForSearch h
  have hmode : plan.mode = mode := by
    rw [hplan,SearchPlan.mode_addTerms]
  have hincluded : plan.positiveTerms.Perm
      ((signed false tokens).map (tokenSelect normalizeForSearch)) :=
    signedTerms_accepted normalizeForSearch hplan false
  have hexcluded : plan.negativeTerms.Perm
      ((signed true tokens).map (tokenSelect normalizeForSearch)) :=
    signedTerms_accepted normalizeForSearch hplan true
  obtain ⟨p,hp⟩ : ∃ p, CompoundSelect.join plan.operator plan.positiveTerms = some p := by
    obtain ⟨s,selects,hs⟩ := List.exists_cons_of_ne_nil hpositive
    exact ⟨_,by rw [hs]; rfl⟩
  refine ⟨tokens,htokens,?_,SearchPlan.exists_matchingExpression hp,fun hone => ?_⟩
  · intro hnone
    rw [hnone] at hincluded
    exact hpositive hincluded.eq_nil
  · obtain ⟨e,he,hrows⟩ := SearchPlan.rows_of_one_exclusion index hp
      (by rw [hexcluded.length_eq,List.length_map]; exact hone)
    refine ⟨e,he,fun id => ?_⟩
    rw [hrows id,SearchPlan.mem_positive_rows index id hp,hmode]
    cases mode with
    | and =>
      simp only [hincluded.mem_iff,hexcluded.mem_iff,List.forall_mem_map,reduceCtorEq,
        forall_true_left,false_implies,true_and]
    | or =>
      simp only [hincluded.mem_iff,hexcluded.mem_iff,List.forall_mem_map,reduceCtorEq,
        forall_true_left,false_implies,true_and]
      refine and_congr_left fun _ => ⟨?_,?_⟩
      · rintro ⟨s,hs,hid⟩
        obtain ⟨token,htoken,rfl⟩ := List.mem_map.mp hs
        exact ⟨token,htoken,hid⟩
      · rintro ⟨token,htoken,hid⟩
        exact ⟨_,List.mem_map_of_mem htoken,hid⟩

/-- Four messages, and an index that finds a term in those whose text has it. -/
def fourTopics : SearchIndex where
  contents := [(1,⟨some "invoice",none,none,none⟩),(2,⟨some "invoice draft",none,none,none⟩),
    (3,⟨none,none,some "draft ab",none⟩),(4,⟨some "lunch",none,some "cab",none⟩)]
  fts term :=
    if term = "\"invoice\"" then [1,2] else if term = "\"draft\"" then [2,3] else []

def topicsPlan : SearchPlan :=
  { matchTerms := ["\"invoice\""], likeTerms := ["ab"], excludeMatchTerms := ["\"draft\""],
    mode := .or, hasSlowPath := true }

theorem parseQuery_topics : parseQuery id "invoice ab -draft" .or = .ok topicsPlan := by
  decide

/-- Two included terms, a short one among them, and an excluded one. -/
theorem acceptedQuery_selects_topics :
    ∃ tokens e, tokenize "invoice ab -draft" = .ok tokens ∧
      topicsPlan.matchingExpression = some e ∧ e.rows fourTopics = {1,4} ∧
      ∀ n, n ∈ e.rows fourTopics ↔
        (∃ token ∈ signed false tokens, n ∈ (tokenSelect id token).rows fourTopics) ∧
        ∀ token ∈ signed true tokens, n ∉ (tokenSelect id token).rows fourTopics := by
  obtain ⟨tokens,htokens,-,-,hone⟩ := acceptedQuery_selects id fourTopics parseQuery_topics
  have hlist : tokens = [(false,"invoice"),(false,"ab"),(true,"draft")] := by
    refine (Except.ok.inj (htokens.symm.trans ?_))
    decide
  obtain ⟨e,he,hrows⟩ := hone (by rw [hlist]; decide)
  refine ⟨tokens,e,htokens,he,?_,fun n => (hrows n).trans ?_⟩
  · cases he
    decide
  · simp

end

/-! ## Listing what was found -/

theorem runWrites_datesWritten {ops : List WriteOp} (hops : ∀ op ∈ ops, op.DatesWritten)
    {start : Repository} (hstart : start.tables.DatesWritten) :
    (runWrites start ops).tables.DatesWritten := by
  induction ops generalizing start with
  | nil => exact hstart
  | cons op ops ih =>
    have hrest : ∀ op ∈ ops, op.DatesWritten := fun o ho => hops o (List.mem_cons_of_mem _ ho)
    rw [runWrites,List.foldl_cons]
    cases happly : op.apply start with
    | error e => exact ih hrest hstart
    | ok repo =>
      exact ih hrest (WriteOp.apply_datesWritten happly (hops op List.mem_cons_self) hstart)

/-- In every state that syncs, merges, moves and deletes lead to, whatever is asked for is listed:
every wanted message that lies in some folder, once, the newest first, and no other. -/
theorem runWrites_listAllMessages (start : Repository) (hstart : start.tables.DatesWritten)
    (ops : List WriteOp) (hops : ∀ op ∈ ops, op.DatesWritten)
    (normalizeForSearch : String → String) (index : SearchIndex) (query : String)
    (mode : SearchMode) (filters : MessageFilter) (plan : Option SearchPlan)
    (hplan : queryPlan normalizeForSearch query mode = .ok plan) :
    ∃ rounds results, listAllMessages normalizeForSearch index (runWrites start ops).tables query
        mode filters rounds = .ok (some results) ∧
      (∀ id, id ∈ results.map MessageSummary.id ↔
        ∃ m ∈ wantedMessages (runWrites start ops) index plan filters, m.id = id ∧
          ∃ r ∈ (runWrites start ops).tables.memberships, r.messageId = id) ∧
      (results.map MessageSummary.id).Nodup ∧
      results.Pairwise fun a b => ∀ m ∈ (runWrites start ops).tables.messages,
        ∀ n ∈ (runWrites start ops).tables.messages, m.id = a.id → n.id = b.id →
          n.pageKey < m.pageKey := by
  have hdates := runWrites_datesWritten hops hstart
  obtain ⟨rounds,hrounds⟩ : ∃ rounds, listAllMessages normalizeForSearch index
      (runWrites start ops).tables query mode filters rounds =
        .ok (some ((listing (runWrites start ops) index plan filters).map PageRow.summary)) :=
    listAllMessages_listing hdates hplan
  refine ⟨rounds,_,hrounds,fun id => ?_,?_,listing_ordered⟩
  · rw [List.map_map,List.mem_map]
    constructor
    · rintro ⟨row,hrow,rfl⟩
      obtain ⟨hwanted,hshows⟩ := mem_listing hrow
      have heligible := hshows.eligible
      simp only [Tables.isEligible,Bool.and_eq_true,beq_iff_eq] at heligible
      exact ⟨row.message,hwanted,rfl,row.membership,hshows.stored,heligible.1⟩
    · rintro ⟨m,hm,rfl,r,hr,hid⟩
      obtain ⟨row,hrow,rfl⟩ := exists_mem_listing hm hr hid
      exact ⟨row,hrow,rfl⟩
  · rw [List.map_map]
    exact listing_once

def fourthRecord : MessageRecord :=
  { accountId := "a", folderId := 1, contentKey := "n", sourceItemKey := .gmail 10,
    uid := some 7, uidvalidity := some 9 }

/-- A fourth message comes in, the third one loses its folders and the second one is found
deleted. -/
def fourWrites : List WriteOp :=
  [.addMessage fourthRecord none,.replaceMessageMemberships 3 [],
    .updateRemoteState 2 .deleted none (some 1),.setHighestModseq 1 (some 5)]

theorem fourWrites_datesWritten : ∀ op ∈ fourWrites, op.DatesWritten := by
  rintro op hop record contents rfl
  obtain ⟨rfl,rfl⟩ : record = fourthRecord ∧ contents = none := by simpa [fourWrites] using hop
  exact ⟨nofun,nofun⟩

theorem runWrites_listAllMessages_four :
    ∃ rounds results, listAllMessages id noText (runWrites threeStored fourWrites).tables "" .and
        {} rounds = .ok (some results) ∧
      (∀ id, id ∈ results.map MessageSummary.id ↔ id = 1 ∨ id = 2 ∨ id = 4) ∧
      (results.map MessageSummary.id).Nodup := by
  obtain ⟨rounds,results,hlist,hids,honce,-⟩ := runWrites_listAllMessages threeStored
    threeMessages_datesWritten fourWrites fourWrites_datesWritten id noText "" .and {} none rfl
  have hwanted : (wantedMessages (runWrites threeStored fourWrites) noText none {}).map
      Message.id = [1,2,3,4] := by decide
  have hfiled : (runWrites threeStored fourWrites).tables.memberships.map
      Membership.messageId = [1,1,2,4] := by decide
  refine ⟨rounds,results,hlist,fun id => (hids id).trans ?_,honce⟩
  have hmessage : (∃ m ∈ wantedMessages (runWrites threeStored fourWrites) noText none {},
      m.id = id) ↔ id ∈ [1,2,3,4] := by
    rw [← hwanted,List.mem_map]
  have hmembership : (∃ r ∈ (runWrites threeStored fourWrites).tables.memberships,
      r.messageId = id) ↔ id ∈ [1,1,2,4] := by
    rw [← hfiled,List.mem_map]
  constructor
  · rintro ⟨-,-,-,hr⟩
    simpa using hmembership.mp hr
  · intro hid
    obtain ⟨m,hm,hmid⟩ := hmessage.mpr (by rcases hid with rfl | rfl | rfl <;> decide)
    exact ⟨m,hm,hmid,hmembership.mpr (by rcases hid with rfl | rfl | rfl <;> decide)⟩

end MailDock
