import MercuryTools.Reconciliation.Report

/-!
# Valid evidence

Evidence that is made of valid rows passes the validators of its model unchanged, so that
`match_transactions` reports it (`PairEvidence.Valid.validated`,
`DuplicateEvidence.Valid.validated`,
`UnmatchedEvidence.Valid.validated`, `ReconciliationResult.validated_eq_ok`).
-/

namespace MercuryTools
namespace Reconciliation

open Checks
open Local (isSpace)

/-! ## Lists without repetitions -/

section

variable {α β : Type} [DecidableEq α] {values : List α} {value : α}

@[simp] lemma mem_orderedUnique : value ∈ orderedUnique values ↔ value ∈ values := by
  induction values with
  | nil => rfl
  | cons first values ih =>
    rw [orderedUnique, List.mem_cons, List.mem_filter, ih, List.mem_cons]
    by_cases h : value = first <;> simp [h]

lemma nodup_orderedUnique (values : List α) : (orderedUnique values).Nodup := by
  induction values with
  | nil => exact List.nodup_nil
  | cons first values ih =>
    refine List.nodup_cons.2 ⟨fun hmem => ?_, ih.filter _⟩
    exact absurd (List.mem_filter.1 hmem).2 (by simp)

lemma orderedUnique_ne_nil (h : values ≠ []) : orderedUnique values ≠ [] := by
  obtain ⟨value, hvalue⟩ := List.exists_mem_of_ne_nil values h
  exact List.ne_nil_of_mem (mem_orderedUnique.2 hvalue)

end

/-- Validations that change nothing. -/
lemma mapM_eq_self {ε : Type} {α : Type} {f : α → Except ε α} {xs : List α}
    (h : ∀ x ∈ xs, f x = .ok x) : xs.mapM f = .ok xs := by
  rw [mapM_eq_ok, List.forall₂_same]
  exact h

/-! ## Valid rows -/

variable {rules : TextRules}

/-- What validation has checked of a row. -/
structure CanonicalTransaction.Valid (rules : TextRules) (row : CanonicalTransaction) : Prop where
  transactionId :
    recordIdentifier rules row.transactionId "transaction_text_invalid" = .ok row.transactionId
  evidenceRefs : ∀ ref ∈ row.evidenceRefs,
    evidenceLocator rules ref "transaction_evidence_refs_invalid" = .ok ref
  idSafe : isCredentialSafe rules row.transactionId = true
  refsSafe : ∀ ref ∈ row.evidenceRefs, isCredentialSafe rules ref = true

/-- An id of a valid row. -/
def ValidId (rules : TextRules) (transactionId : String) : Prop :=
  recordIdentifier rules transactionId evidenceTextInvalid = .ok transactionId ∧
    isCredentialSafe rules transactionId = true

/-- References of valid rows. -/
structure ValidRefs (rules : TextRules) (refs : List String) : Prop where
  locators : ∀ ref ∈ refs, evidenceLocator rules ref evidenceTextInvalid = .ok ref
  safe : ∀ ref ∈ refs, isCredentialSafe rules ref = true
  ne_nil : refs ≠ []
  nodup : refs.Nodup

lemma CanonicalTransaction.Valid.validId {row : CanonicalTransaction} (h : row.Valid rules) :
    ValidId rules row.transactionId :=
  ⟨recordIdentifier_eq_ok h.transactionId, h.idSafe⟩

lemma CanonicalTransaction.Valid.validRefs {row : CanonicalTransaction} (h : row.Valid rules) :
    ValidRefs rules row.evidenceRefs where
  locators := fun ref href => evidenceLocator_eq_ok (h.evidenceRefs ref href)
  safe := h.refsSafe
  ne_nil := row.evidenceRefs_ne_nil
  nodup := row.evidenceRefs_nodup

/-- The references of several valid rows. -/
lemma validRefs_orderedUnique {rows : List CanonicalTransaction}
    (hvalid : ∀ row ∈ rows, row.Valid rules) (hne : rows ≠ []) :
    ValidRefs rules (orderedUnique (rows.flatMap (·.evidenceRefs))) := by
  have hmem : ∀ {ref}, ref ∈ orderedUnique (rows.flatMap (·.evidenceRefs)) →
      ∃ row ∈ rows, ref ∈ row.evidenceRefs := fun href =>
    List.mem_flatMap.1 (mem_orderedUnique.1 href)
  constructor
  · intro ref href
    obtain ⟨row, hrow, href⟩ := hmem href
    exact (hvalid row hrow).validRefs.locators ref href
  · intro ref href
    obtain ⟨row, hrow, href⟩ := hmem href
    exact (hvalid row hrow).refsSafe ref href
  · obtain ⟨row, hrow⟩ := List.exists_mem_of_ne_nil rows hne
    obtain ⟨ref, href⟩ := List.exists_mem_of_ne_nil _ row.evidenceRefs_ne_nil
    exact orderedUnique_ne_nil (List.ne_nil_of_mem (List.mem_flatMap.2 ⟨row, hrow, href⟩))
  · exact nodup_orderedUnique _

lemma validatedRefs_eq_ok {refs : List String} (h : ValidRefs rules refs) :
    validatedRefs rules refs = .ok refs := by
  have hlength : 1 ≤ refs.length := List.length_pos_iff.2 h.ne_nil
  rw [validatedRefs, mapM_eq_self h.locators]
  simp [bind, Except.bind, require, hlength, h.nodup, pure, Except.pure]

/-! ## Credentials -/

/-- Literals are made of small letters and low lines, and do not look like credentials. -/
def isPlainLiteral (text : String) : Bool :=
  (text.toList.all fun c => 'a' ≤ c && c ≤ 'z' || c = '_') &&
    !sensitiveValuePrefixes.any (·.toList.isPrefixOf text.toList)

lemma occursIn_cons {c : Char} {part text : List Char} (h : occursIn (c :: part) text = true) :
    c ∈ text := by
  obtain ⟨tail, htail, hstart⟩ := List.any_eq_true.1 h
  have hmem : c ∈ tail := (List.isPrefixOf_iff_prefix.1 hstart).subset List.mem_cons_self
  exact ((List.mem_tails _ _).1 htail).subset hmem

lemma isSpace_of_letter {c : Char} (hlow : 'a' ≤ c) (hhigh : c ≤ 'z') : isSpace c = false := by
  have hbelow : ∀ d, d < 'a' → ¬ c ≤ d := fun d hd hle => absurd (hlow.trans hle) (not_le.2 hd)
  have habove : ∀ d, 'z' < d → ¬ d ≤ c := fun d hd hle => absurd (hle.trans hhigh) (not_le.2 hd)
  have hother : c ∉ ['\u0085', '\u00a0', '\u1680', '\u2028', '\u2029', '\u202f', '\u205f',
      '\u3000'] := by
    intro hmem
    have hall : ∀ d ∈ ['\u0085', '\u00a0', '\u1680', '\u2028', '\u2029', '\u202f', '\u205f',
      '\u3000'], 'z' < d := by
      simp only [List.forall_mem_cons, List.not_mem_nil, false_implies, implies_true, and_true]
      refine ⟨?_, ?_, ?_, ?_, ?_, ?_, ?_, ?_⟩ <;> decide
    exact habove c (hall c hmem) le_rfl
  simp only [isSpace, hbelow '\r' (by decide), hbelow ' ' (by decide),
    habove '\u2000' (by decide), hother, decide_false, Bool.and_false, Bool.false_and,
    Bool.or_false]

lemma isCredentialSafe_of_plain {text : String} (h : isPlainLiteral text = true) :
    isCredentialSafe rules text = true := by
  obtain ⟨hletters, hstart⟩ := (Bool.and_eq_true_iff).1 h
  have hletter : ∀ c ∈ text.toList, ('a' ≤ c ∧ c ≤ 'z') ∨ c = '_' := by
    intro c hc
    have hcase := List.all_eq_true.1 hletters c hc
    simpa only [Bool.or_eq_true, Bool.and_eq_true, decide_eq_true_eq] using hcase
  have hspace : text.toList.dropWhile isSpace = text.toList := by
    rw [List.dropWhile_eq_self_iff]
    intro hpos hhead
    rcases hletter _ (List.getElem_mem hpos) with ⟨hlow, hhigh⟩ | hline
    · rw [isSpace_of_letter hlow hhigh] at hhead
      cases hhead
    · rw [hline] at hhead
      exact absurd hhead (by decide)
  have hmark : ∀ c : Char, c < 'a' → c ≠ '_' → c ∉ text.toList := by
    intro c hlt hne hmem
    exact (hletter c hmem).elim (fun hle => absurd hlt (not_lt.2 hle.1)) hne
  have hquery : occursIn ['?'] text.toList = false :=
    Bool.eq_false_iff.2 fun hoccurs => hmark '?' (by decide) (by decide) (occursIn_cons hoccurs)
  have hscheme : occursIn "://".toList text.toList = false :=
    Bool.eq_false_iff.2 fun hoccurs => hmark ':' (by decide) (by decide) (occursIn_cons hoccurs)
  have hslashes : "//".toList.isPrefixOf text.toList = false :=
    Bool.eq_false_iff.2 fun hslash => hmark '/' (by decide) (by decide)
      ((List.isPrefixOf_iff_prefix.1 hslash).subset List.mem_cons_self)
  rw [isCredentialSafe, hspace, String.ofList_toList, rules.casefold_eq text hletters, hquery,
    hscheme, hslashes]
  rw [Bool.not_eq_true'] at hstart
  rw [hstart]
  split <;> rfl

/-! ## Valid models -/

/-- What `match_transactions` puts into `PairEvidence`. -/
structure PairEvidence.Valid (rules : TextRules) (item : PairEvidence) : Prop where
  left : ValidId rules item.leftTransactionId
  right : ValidId rules item.rightTransactionId
  fields : ∀ field ∈ item.matchedFields, field ∈ allowedMatchFields
  fields_ne_nil : item.matchedFields ≠ []
  refs : ValidRefs rules item.evidenceRefs
  count : 1 ≤ item.candidateCount

/-- What `match_transactions` puts into `DuplicateEvidence`. -/
structure DuplicateEvidence.Valid (rules : TextRules) (item : DuplicateEvidence) : Prop where
  ids : ∀ transactionId ∈ item.transactionIds, ValidId rules transactionId
  canonical : item.canonicalTransactionId ∈ item.transactionIds
  length : 2 ≤ item.transactionIds.length
  nodup : item.transactionIds.Nodup
  refs : ValidRefs rules item.evidenceRefs

/-- What `match_transactions` puts into `UnmatchedEvidence`. -/
structure UnmatchedEvidence.Valid (rules : TextRules) (item : UnmatchedEvidence) : Prop where
  id : ValidId rules item.transactionId
  refs : ValidRefs rules item.evidenceRefs

lemma validateCredentialSafe_eq_ok {texts : List String}
    (h : ∀ text ∈ texts, isCredentialSafe rules text = true) :
    validateCredentialSafe rules texts = .ok () := by
  rw [validateCredentialSafe, require_eq_ok]
  exact List.all_eq_true.2 h

/-- The names of the matched fields are normalized. -/
lemma normalizedText_allowed {field : String} (h : field ∈ allowedMatchFields) :
    normalizedText field evidenceTextInvalid = .ok field := by
  revert field
  decide

lemma Classification.safe (classification : Classification) :
    isCredentialSafe rules classification.text = true :=
  isCredentialSafe_of_plain (by cases classification <;> decide)

lemma Side.safe (side : Side) : isCredentialSafe rules side.text = true :=
  isCredentialSafe_of_plain (by cases side <;> decide)

lemma TieBreaker.safe (tieBreaker : TieBreaker) : isCredentialSafe rules tieBreaker.text = true :=
  isCredentialSafe_of_plain (by cases tieBreaker <;> decide)

lemma UnmatchedReason.safe (reason : UnmatchedReason) :
    isCredentialSafe rules reason.text = true :=
  isCredentialSafe_of_plain (by cases reason <;> decide)

lemma safe_of_allowed {field : String} (h : field ∈ allowedMatchFields) :
    isCredentialSafe rules field = true := by
  refine isCredentialSafe_of_plain ?_
  revert field
  decide

theorem PairEvidence.Valid.validated {item : PairEvidence} (h : item.Valid rules) :
    item.validated rules = .ok item := by
  have hsafe : validateCredentialSafe rules ([item.classification.text, item.leftTransactionId,
      item.rightTransactionId] ++ item.matchedFields ++ item.evidenceRefs ++
        [item.tieBreaker.text]) = .ok () := by
    refine validateCredentialSafe_eq_ok fun text htext => ?_
    simp only [List.mem_append, List.mem_cons, List.not_mem_nil, or_false] at htext
    rcases htext with (((rfl | rfl | rfl) | hfield) | href) | rfl
    · exact item.classification.safe
    · exact h.left.2
    · exact h.right.2
    · exact safe_of_allowed (h.fields text hfield)
    · exact h.refs.safe text href
    · exact item.tieBreaker.safe
  have hfields : item.matchedFields.mapM (normalizedText · evidenceTextInvalid) =
      .ok item.matchedFields :=
    mapM_eq_self fun field hfield => normalizedText_allowed (h.fields field hfield)
  have hallowed : (!item.matchedFields.isEmpty &&
      item.matchedFields.all (allowedMatchFields.contains ·)) = true := by
    rw [Bool.and_eq_true, Bool.not_eq_true', List.isEmpty_eq_false_iff, List.all_eq_true]
    exact ⟨h.fields_ne_nil, fun field hfield => List.contains_iff_mem.2 (h.fields field hfield)⟩
  simp only [PairEvidence.validated, bind_eq_ok, require_eq_ok, pure_eq_ok]
  exact ⟨(), hsafe, _, h.left.1, _, h.right.1, _, hfields, _, validatedRefs_eq_ok h.refs, (),
    decide_eq_true h.count, (), hallowed, rfl⟩

theorem DuplicateEvidence.Valid.validated {item : DuplicateEvidence} (h : item.Valid rules) :
    item.validated rules = .ok item := by
  have hcanonical := h.ids _ h.canonical
  have hsafe : validateCredentialSafe rules ([item.side.text, item.canonicalTransactionId] ++
      item.transactionIds ++ item.evidenceRefs) = .ok () := by
    refine validateCredentialSafe_eq_ok fun text htext => ?_
    simp only [List.mem_append, List.mem_cons, List.not_mem_nil, or_false] at htext
    rcases htext with ((rfl | rfl) | hid) | href
    · exact item.side.safe
    · exact hcanonical.2
    · exact (h.ids text hid).2
    · exact h.refs.safe text href
  have hids : item.transactionIds.mapM (recordIdentifier rules · evidenceTextInvalid) =
      .ok item.transactionIds :=
    mapM_eq_self fun transactionId hid => (h.ids transactionId hid).1
  have hcontains : (decide item.transactionIds.Nodup &&
      item.transactionIds.contains item.canonicalTransactionId) = true := by
    rw [Bool.and_eq_true, decide_eq_true_eq, List.contains_iff_mem]
    exact ⟨h.nodup, h.canonical⟩
  simp only [DuplicateEvidence.validated, bind_eq_ok, require_eq_ok, pure_eq_ok]
  exact ⟨(), hsafe, _, hcanonical.1, _, hids, (), decide_eq_true h.length, _,
    validatedRefs_eq_ok h.refs, (), hcontains, rfl⟩

theorem UnmatchedEvidence.Valid.validated {item : UnmatchedEvidence} (h : item.Valid rules) :
    item.validated rules = .ok item := by
  have hsafe : validateCredentialSafe rules ([item.side.text, item.transactionId] ++
      item.evidenceRefs ++ [item.reason.text]) = .ok () := by
    refine validateCredentialSafe_eq_ok fun text htext => ?_
    simp only [List.mem_append, List.mem_cons, List.not_mem_nil, or_false] at htext
    rcases htext with ((rfl | rfl) | href) | rfl
    · exact item.side.safe
    · exact h.id.2
    · exact h.refs.safe text href
    · exact item.reason.safe
  simp only [UnmatchedEvidence.validated, bind_eq_ok, pure_eq_ok]
  exact ⟨(), hsafe, _, h.id.1, _, validatedRefs_eq_ok h.refs, rfl⟩

/-- A result of valid items. -/
theorem ReconciliationResult.validated_eq_ok {result : ReconciliationResult}
    (hmatched : ∀ item ∈ result.matched, item.Valid rules)
    (hdifferences : ∀ item ∈ result.differences, item.Valid rules)
    (hduplicates : ∀ item ∈ result.duplicates, item.Valid rules)
    (hunmatched : ∀ item ∈ result.unmatched, item.Valid rules) :
    result.validated rules = .ok result := by
  simp only [ReconciliationResult.validated, bind_eq_ok, pure_eq_ok]
  exact ⟨_, mapM_eq_self fun item hitem => (hmatched item hitem).validated,
    _, mapM_eq_self fun item hitem => (hdifferences item hitem).validated,
    _, mapM_eq_self fun item hitem => (hduplicates item hitem).validated,
    _, mapM_eq_self fun item hitem => (hunmatched item hitem).validated, rfl⟩

end Reconciliation
end MercuryTools
