import MercuryTools.Hosted.StatusSystem

/-!
# Ways out of a status

Every parent status that is not terminal has exits, each of which wants a particular mix of
child statuses, and a child that has ended does not move again.  So some mixes are dead: an
expired child next to a cancelled one under an unconfirmed parent, a succeeded child next to
one that was not dispatched under a dispatching parent.  `hasExit` is the mixes that are not
dead.  It is exactly the states from which a terminal parent status is reachable
(`finishes_iff_hasExit`), and `keepsExit` says, of a state and a move, whether the move leads
into a dead mix (`hasExit_step_iff`).
-/

namespace MercuryTools
namespace Hosted

open CallSystem

namespace Statuses

/-- Some sequence of accepted moves ends in a terminal parent status. -/
def Finishes (s : Statuses) : Prop :=
  ∃ s', Reaches step s s' ∧ s'.parent.isTerminal = true

/-- The mixes of child statuses that leave a parent status an exit. -/
def hasExit (s : Statuses) : Bool :=
  match s.parent with
  | .awaitingConfirmation =>
      s.children.all (· ∈ [.awaitingConfirmation, .failedPreDispatch, .notDispatched]) ||
        s.children.all (· ∈ [.awaitingConfirmation, .expired]) ||
        s.children.all (· ∈ [.awaitingConfirmation, .cancelled, .notDispatched])
  | .dispatching =>
      s.children.any (· ∉ [.succeeded, .notDispatched]) || s.children.all (· == .succeeded)
  | .outcomeUnknown =>
      s.children.any (· ∈ [.outcomeUnknown, .needsManualReview]) ||
        s.children.all (· == .succeeded)
  | _ => true

/-! ## Moving the children one after another -/

/-- A child gets from one status to another by item moves under a fixed parent. -/
def ItemReaches (p : ParentOperationState) : OperationItemState → OperationItemState → Prop :=
  Relation.ReflTransGen fun c t => itemOperationTransitionAllowed c t p = true

variable {p : ParentOperationState} {c t : OperationItemState}
  {f : OperationItemState → OperationItemState} {cs : List OperationItemState} {s s' : Statuses}
  {i : Nat} {move : StatusMove}

lemma reaches_item (h : ItemReaches p c t) (pre post : List OperationItemState) :
    Reaches step ⟨p, pre ++ c :: post⟩ ⟨p, pre ++ t :: post⟩ := by
  induction h with
  | refl => exact Reaches.refl _
  | @tail d t _ hmove ih =>
      refine ih.trans (Reaches.single (c := .item pre.length t) ?_)
      exact step_item.2 ⟨d, by simp, hmove, by simp⟩

lemma reaches_map_aux (post : List OperationItemState) (h : ∀ c ∈ post, ItemReaches p c (f c))
    (pre : List OperationItemState) : Reaches step ⟨p, pre ++ post⟩ ⟨p, pre ++ post.map f⟩ := by
  induction post generalizing pre with
  | nil => exact Reaches.refl _
  | cons c post ih =>
      have hhead := reaches_item (h c (by simp)) pre post
      have htail := ih (fun d hd => h d (List.mem_cons_of_mem _ hd)) (pre ++ [f c])
      simp only [List.append_assoc, List.singleton_append] at htail
      simpa using hhead.trans htail

/-- All children move, each as far as it can get on its own. -/
lemma reaches_map (h : ∀ c ∈ cs, ItemReaches p c (f c)) : Reaches step ⟨p, cs⟩ ⟨p, cs.map f⟩ := by
  simpa using reaches_map_aux cs h []

lemma Finishes.of_reaches (h : Reaches step s s') (hf : s'.Finishes) : s.Finishes := by
  obtain ⟨t, ht, hterm⟩ := hf
  exact ⟨t, h.trans ht, hterm⟩

/-- A parent move first. -/
lemma Finishes.of_allowed {t : ParentOperationState}
    (h : parentOperationTransitionAllowed p t cs = true) (hf : Finishes ⟨t, cs⟩) :
    Finishes ⟨p, cs⟩ :=
  Finishes.of_reaches (Reaches.single (c := .parent t) (step_parent.2 ⟨h, rfl⟩)) hf

lemma finishes_of_terminal (hterm : s.parent.isTerminal = true) : s.Finishes :=
  ⟨s, Reaches.refl s, hterm⟩

/-- A parent move into a terminal status. -/
lemma finishes_of_allowed {t : ParentOperationState}
    (h : parentOperationTransitionAllowed p t cs = true) (hterm : t.isTerminal = true) :
    Finishes ⟨p, cs⟩ :=
  Finishes.of_allowed h (finishes_of_terminal hterm)

/-! ## Every mix with an exit finishes -/

/-- Under a parent that failed before dispatch, the failed children are cancelled. -/
def cancelFailed : OperationItemState → OperationItemState
  | .failedPreDispatch => .cancelled
  | c => c

lemma finishes_failedPreDispatch (hne : cs ≠ [])
    (h : ∀ c ∈ cs, c ∈ [.failedPreDispatch, .notDispatched, .cancelled]) :
    Finishes ⟨.failedPreDispatch, cs⟩ := by
  refine Finishes.of_reaches (reaches_map (f := cancelFailed) fun c hc => ?_) ?_
  · have hmem := h c hc
    simp only [List.mem_cons, List.not_mem_nil, or_false] at hmem
    rcases hmem with rfl | rfl | rfl
    · exact Relation.ReflTransGen.single (by decide)
    · exact Relation.ReflTransGen.refl
    · exact Relation.ReflTransGen.refl
  · refine finishes_of_allowed (t := .cancelled) ((parentAllowed_iff (by decide)).2 ⟨?_, ?_⟩) rfl
    · simpa using hne
    · intro c hc
      obtain ⟨d, hd, rfl⟩ := List.mem_map.1 hc
      have hmem := h d hd
      revert hmem
      cases d <;> decide

/-- Under an unconfirmed parent, the children still awaiting confirmation are closed as `t`. -/
def closeAwaiting (t : OperationItemState) : OperationItemState → OperationItemState
  | .awaitingConfirmation => t
  | c => c

lemma reaches_closeAwaiting
    (ht : itemOperationTransitionAllowed .awaitingConfirmation t .awaitingConfirmation = true) :
    Reaches step ⟨.awaitingConfirmation, cs⟩
      ⟨.awaitingConfirmation, cs.map (closeAwaiting t)⟩ := by
  refine reaches_map fun c _ => ?_
  cases c with
  | awaitingConfirmation => exact Relation.ReflTransGen.single ht
  | _ => exact Relation.ReflTransGen.refl

lemma closeAwaiting_mem {rest : List OperationItemState}
    (h : ∀ c ∈ cs, c ∈ .awaitingConfirmation :: rest) (ht : t ∈ rest) :
    ∀ c ∈ cs.map (closeAwaiting t), c ∈ rest := by
  intro c hc
  obtain ⟨d, hd, rfl⟩ := List.mem_map.1 hc
  have hmem := h d hd
  by_cases heq : d = .awaitingConfirmation
  · subst heq; exact ht
  · have : closeAwaiting t d = d := by cases d <;> simp_all [closeAwaiting]
    rw [this]
    simpa [heq] using hmem

lemma finishes_awaiting (hne : cs ≠ []) (h : hasExit ⟨.awaitingConfirmation, cs⟩ = true) :
    Finishes ⟨.awaitingConfirmation, cs⟩ := by
  have hmap : ∀ t, cs.map (closeAwaiting t) ≠ [] := fun t => by simpa using hne
  simp only [hasExit, Bool.or_eq_true, all_mem_iff] at h
  rcases h with (h | h) | h
  · -- close the open children as not dispatched, fail the parent, cancel the failed children
    have hmem := closeAwaiting_mem (t := .notDispatched) h (by decide)
    refine Finishes.of_reaches (reaches_closeAwaiting (t := .notDispatched) (by decide)) ?_
    refine Finishes.of_allowed (t := .failedPreDispatch)
      ((parentAllowed_iff (by decide)).2 ⟨hmap _, hmem⟩) ?_
    have hsub : [OperationItemState.failedPreDispatch, .notDispatched] ⊆
        [.failedPreDispatch, .notDispatched, .cancelled] := by decide
    exact finishes_failedPreDispatch (hmap _) fun c hc => hsub (hmem c hc)
  · refine Finishes.of_reaches (reaches_closeAwaiting (t := .expired) (by decide)) ?_
    exact finishes_of_allowed (t := .expired)
      ((parentAllowed_iff (by decide)).2 ⟨hmap _, closeAwaiting_mem h (by decide)⟩) rfl
  · refine Finishes.of_reaches (reaches_closeAwaiting (t := .cancelled) (by decide)) ?_
    exact finishes_of_allowed (t := .cancelled)
      ((parentAllowed_iff (by decide)).2 ⟨hmap _, closeAwaiting_mem h (by decide)⟩) rfl

/-- Under a dispatching parent, every child that has not ended is dispatched and rejected. -/
def rejectOpen : OperationItemState → OperationItemState
  | .awaitingConfirmation => .providerRejected
  | .failedPreDispatch => .providerRejected
  | .dispatching => .providerRejected
  | c => c

lemma itemReaches_rejectOpen (c : OperationItemState) :
    ItemReaches .dispatching c (rejectOpen c) := by
  have hlast : itemOperationTransitionAllowed .dispatching .providerRejected .dispatching = true :=
    by decide
  cases c with
  | awaitingConfirmation =>
      exact (Relation.ReflTransGen.single (by decide)).tail hlast
  | failedPreDispatch =>
      exact (Relation.ReflTransGen.single (by decide)).tail hlast
  | dispatching => exact Relation.ReflTransGen.single hlast
  | _ => exact Relation.ReflTransGen.refl

lemma rejectOpen_mem (h : c ∈ childrenUnder .dispatching) : rejectOpen c ∈ itemTerminal := by
  revert h
  cases c <;> decide

lemma finishes_dispatching (hne : cs ≠ []) (hunder : ∀ c ∈ cs, c ∈ childrenUnder .dispatching)
    (h : hasExit ⟨.dispatching, cs⟩ = true) : Finishes ⟨.dispatching, cs⟩ := by
  simp only [hasExit, Bool.or_eq_true, all_eq_iff] at h
  rcases h with h | h
  · obtain ⟨c, hc, hcmem⟩ := List.any_eq_true.1 h
    have hend : ∀ d ∈ cs.map rejectOpen, d ∈ itemTerminal := by
      intro d hd
      obtain ⟨e, he, rfl⟩ := List.mem_map.1 hd
      exact rejectOpen_mem (hunder e he)
    have hmem : rejectOpen c ∈ cs.map rejectOpen := List.mem_map_of_mem hc
    have hne' : cs.map rejectOpen ≠ [] := by simpa using hne
    refine Finishes.of_reaches (reaches_map fun d _ => itemReaches_rejectOpen d) ?_
    -- the child that is neither succeeded nor undispatched is now rejected or of unknown outcome
    have hkind : rejectOpen c = .providerRejected ∨ rejectOpen c = .outcomeUnknown := by
      have := hunder c hc
      revert this hcmem
      cases c <;> decide
    rcases hkind with hkind | hkind
    · exact finishes_of_allowed (t := .providerRejected)
        ((parentAllowed_iff (by decide)).2 ⟨hne', hend, _, hmem, by simp [hkind]⟩) rfl
    · exact finishes_of_allowed (t := .needsManualReview)
        ((parentAllowed_iff (by decide)).2 ⟨hne', hend, _, hmem, by simp [hkind]⟩) rfl
  · exact finishes_of_allowed (t := .succeeded)
      ((parentAllowed_iff (by decide)).2 ⟨hne, h⟩) rfl

lemma finishes_outcomeUnknown (hne : cs ≠ []) (hunder : ∀ c ∈ cs, c ∈ childrenUnder .outcomeUnknown)
    (h : hasExit ⟨.outcomeUnknown, cs⟩ = true) : Finishes ⟨.outcomeUnknown, cs⟩ := by
  simp only [hasExit, Bool.or_eq_true, all_eq_iff] at h
  rcases h with h | h
  · obtain ⟨c, hc, hcmem⟩ := List.any_eq_true.1 h
    have hend : ∀ d ∈ cs, d ∈ itemTerminal := by
      intro d hd
      have := hunder d hd
      revert this
      cases d <;> decide
    refine finishes_of_allowed (t := .needsManualReview)
      ((parentAllowed_iff (by decide)).2 ⟨hne, hend, c, hc, ?_⟩) rfl
    simpa [or_comm] using hcmem
  · exact finishes_of_allowed (t := .succeeded)
      ((parentAllowed_iff (by decide)).2 ⟨hne, h⟩) rfl

/-- A coherent state with an exit finishes. -/
theorem Coherent.finishes (h : s.Coherent) (hexit : s.hasExit = true) : s.Finishes := by
  have hne := h.children_ne_nil
  have hunder := h.all_mem
  obtain ⟨p, cs⟩ := s
  cases p with
  | prepared => exact absurd rfl h.parent_ne_prepared
  | awaitingConfirmation => exact finishes_awaiting hne hexit
  | failedPreDispatch => exact finishes_failedPreDispatch hne hunder
  | dispatching => exact finishes_dispatching hne hunder hexit
  | outcomeUnknown => exact finishes_outcomeUnknown hne hunder hexit
  | succeeded => exact finishes_of_terminal rfl
  | providerRejected => exact finishes_of_terminal rfl
  | needsManualReview => exact finishes_of_terminal rfl
  | expired => exact finishes_of_terminal rfl
  | cancelled => exact finishes_of_terminal rfl

/-! ## No dead mix finishes -/

/-- A list around one of its members, and the same list with another one in its place. -/
lemma exists_around (h : cs[i]? = some c) (t : OperationItemState) :
    ∃ pre post, cs = pre ++ c :: post ∧ cs.set i t = pre ++ t :: post ∧
      cs.eraseIdx i = pre ++ post := by
  obtain ⟨hlt, rfl⟩ := List.getElem?_eq_some_iff.1 h
  refine ⟨cs.take i, cs.drop (i + 1), ?_, ?_, ?_⟩
  · simp
  · rw [List.set_eq_take_append_cons_drop, if_pos hlt]
  · exact List.eraseIdx_eq_take_drop_succ ..

/-- Whether a move leaves its parent an exit.  A parent's own move always does, and so does
an item move into most statuses; the others are judged by the siblings of the item. -/
def keepsExit (s : Statuses) : StatusMove → Bool
  | .parent _ => true
  | .item index target =>
      let siblings := s.children.eraseIdx index
      match s.parent, target with
      | .awaitingConfirmation, .expired => siblings.all (· ∈ [.awaitingConfirmation, .expired])
      | .awaitingConfirmation, .cancelled =>
          siblings.all (· ∈ [.awaitingConfirmation, .cancelled, .notDispatched])
      | .awaitingConfirmation, .failedPreDispatch =>
          siblings.all (· ∈ [.awaitingConfirmation, .failedPreDispatch, .notDispatched])
      | .awaitingConfirmation, .notDispatched =>
          siblings.all (· ∈ [.awaitingConfirmation, .failedPreDispatch, .notDispatched]) ||
            siblings.all (· ∈ [.awaitingConfirmation, .cancelled, .notDispatched])
      | .dispatching, .notDispatched => siblings.any (· ∉ [.succeeded, .notDispatched])
      | .dispatching, .succeeded =>
          siblings.any (· ∉ [.succeeded, .notDispatched]) || siblings.all (· == .succeeded)
      | .outcomeUnknown, .succeeded =>
          siblings.any (· ∈ [.outcomeUnknown, .needsManualReview]) ||
            siblings.all (· == .succeeded)
      | _, _ => true

/-- The item moves under the three parent statuses that can lose their exits. -/
lemma itemMove_cases (hunder : c ∈ childrenUnder p)
    (h : itemOperationTransitionAllowed c t p = true) :
    (p = .awaitingConfirmation ∧ c = .awaitingConfirmation ∧
        t ∈ [.failedPreDispatch, .notDispatched, .cancelled, .expired]) ∨
      (p = .dispatching ∧ c ∈ [.awaitingConfirmation, .failedPreDispatch] ∧
        t ∈ [.dispatching, .notDispatched]) ∨
      (p = .dispatching ∧ c = .dispatching ∧
        t ∈ [.succeeded, .providerRejected, .outcomeUnknown]) ∨
      (p = .outcomeUnknown ∧ c = .outcomeUnknown ∧ t ∈ [.succeeded, .needsManualReview]) ∨
      p = .failedPreDispatch := by
  have hall : ∀ c ∈ childrenUnder p, ∀ t ∈ itemTransitions c,
      itemOperationTransitionAllowed c t p = true →
        (p = .awaitingConfirmation ∧ c = .awaitingConfirmation ∧
            t ∈ [.failedPreDispatch, .notDispatched, .cancelled, .expired]) ∨
          (p = .dispatching ∧ c ∈ [.awaitingConfirmation, .failedPreDispatch] ∧
            t ∈ [.dispatching, .notDispatched]) ∨
          (p = .dispatching ∧ c = .dispatching ∧
            t ∈ [.succeeded, .providerRejected, .outcomeUnknown]) ∨
          (p = .outcomeUnknown ∧ c = .outcomeUnknown ∧ t ∈ [.succeeded, .needsManualReview]) ∨
          p = .failedPreDispatch := by
    cases p <;> decide
  exact hall c hunder t (mem_itemTransitions h) h

lemma hasExit_step_item (hc : cs[i]? = some c) (hunder : c ∈ childrenUnder p)
    (h : itemOperationTransitionAllowed c t p = true) :
    hasExit ⟨p, cs.set i t⟩ = keepsExit ⟨p, cs⟩ (.item i t) := by
  obtain ⟨pre, post, -, hset, herase⟩ := exists_around hc t
  simp only [hasExit, keepsExit, hset, herase, List.all_append, List.any_append, List.all_cons,
    List.any_cons]
  rcases itemMove_cases hunder h with ⟨rfl, rfl, ht⟩ | ⟨rfl, -, ht⟩ | ⟨rfl, -, ht⟩ |
    ⟨rfl, -, ht⟩ | rfl
  · simp only [List.mem_cons, List.not_mem_nil, or_false] at ht
    rcases ht with rfl | rfl | rfl | rfl <;> simp
  · simp only [List.mem_cons, List.not_mem_nil, or_false] at ht
    rcases ht with rfl | rfl <;> simp
  · simp only [List.mem_cons, List.not_mem_nil, or_false] at ht
    rcases ht with rfl | rfl | rfl <;> simp
  · simp only [List.mem_cons, List.not_mem_nil, or_false] at ht
    rcases ht with rfl | rfl <;> simp
  · rfl

/-- A parent move leads to a status with an exit, and is itself one. -/
lemma Coherent.hasExit_parent (h : s.Coherent) {t : ParentOperationState}
    (hallowed : parentOperationTransitionAllowed s.parent t s.children = true) :
    hasExit { s with parent := t } = true := by
  obtain ⟨c, hc⟩ := List.exists_mem_of_ne_nil _ h.children_ne_nil
  have hmem := mem_parentTransitions hallowed
  rw [parentAllowed_iff hmem] at hallowed
  cases t with
  | awaitingConfirmation =>
      have hp := h.parent_ne_prepared
      cases hp' : s.parent <;> simp [hp', parentTransitions] at hmem hp
  | dispatching =>
      refine Bool.or_eq_true_iff.2 (.inl (List.any_eq_true.2 ⟨c, hc, ?_⟩))
      have := hallowed c hc
      revert this
      cases c <;> decide
  | outcomeUnknown =>
      obtain ⟨-, -, d, hd, hunknown⟩ := hallowed
      refine Bool.or_eq_true_iff.2 (.inl (List.any_eq_true.2 ⟨d, hd, ?_⟩))
      revert hunknown
      cases d <;> decide
  | _ => rfl

lemma all_mem_mono {t u : List OperationItemState} (h : ∀ c ∈ cs, c ∈ t) (hsub : t ⊆ u) :
    cs.all (· ∈ u) = true :=
  all_mem_iff.2 fun c hc => hsub (h c hc)

/-- A parent move is an exit of the status it leaves. -/
lemma hasExit_of_parentAllowed {t : ParentOperationState}
    (hallowed : parentOperationTransitionAllowed p t cs = true) : hasExit ⟨p, cs⟩ = true := by
  have hmem := mem_parentTransitions hallowed
  rw [parentAllowed_iff hmem] at hallowed
  cases p with
  | awaitingConfirmation =>
      simp only [parentTransitions, List.mem_cons, List.not_mem_nil, or_false] at hmem
      simp only [hasExit, Bool.or_eq_true]
      rcases hmem with rfl | rfl | rfl | rfl
      · exact .inl (.inl (all_mem_mono hallowed (by decide)))
      · exact .inl (.inl (all_mem_mono hallowed.2 (by decide)))
      · exact .inl (.inr (all_mem_mono hallowed.2 (by decide)))
      · exact .inr (all_mem_mono hallowed.2 (by decide))
  | dispatching =>
      simp only [parentTransitions, List.mem_cons, List.not_mem_nil, or_false] at hmem
      simp only [hasExit, Bool.or_eq_true, all_eq_iff]
      have hany : ∀ {t : List OperationItemState}, (∃ c ∈ cs, c ∈ t) →
          (∀ c ∈ t, c ∉ [OperationItemState.succeeded, .notDispatched]) →
          cs.any (· ∉ [.succeeded, .notDispatched]) = true := by
        rintro t ⟨c, hc, hct⟩ hdisjoint
        exact List.any_eq_true.2 ⟨c, hc, by simpa using hdisjoint c hct⟩
      rcases hmem with rfl | rfl | rfl | rfl
      · exact .inr hallowed.2
      · exact .inl (hany hallowed.2.2 (by decide))
      · exact .inl (hany hallowed.2.2 (by decide))
      · exact .inl (hany hallowed.2.2 (by decide))
  | outcomeUnknown =>
      simp only [parentTransitions, List.mem_cons, List.not_mem_nil, or_false] at hmem
      simp only [hasExit, Bool.or_eq_true, all_eq_iff]
      rcases hmem with rfl | rfl
      · exact .inr hallowed.2
      · obtain ⟨c, hc, hct⟩ := hallowed.2.2
        exact .inl (List.any_eq_true.2 ⟨c, hc, by simpa [or_comm] using hct⟩)
  | _ => rfl

/-- An accepted move leads to a status with an exit exactly when it keeps the exit. -/
theorem Coherent.hasExit_step (h : s.Coherent) (hmove : s.step move = .ok s') :
    s'.hasExit = s.keepsExit move := by
  cases move with
  | parent target =>
      obtain ⟨hallowed, rfl⟩ := Statuses.step_parent.1 hmove
      exact h.hasExit_parent hallowed
  | item index target =>
      obtain ⟨child, hchild, hallowed, rfl⟩ := Statuses.step_item.1 hmove
      exact hasExit_step_item hchild (h.all_mem _ (List.mem_of_getElem? hchild)) hallowed

/-- Under a parent that lost its exits, no move of a child brings one back. -/
lemma dead_step_item (hc : cs[i]? = some c) (hunder : c ∈ childrenUnder p)
    (h : itemOperationTransitionAllowed c t p = true) (hdead : hasExit ⟨p, cs⟩ = false) :
    hasExit ⟨p, cs.set i t⟩ = false := by
  obtain ⟨pre, post, rfl, hset, -⟩ := exists_around hc t
  rw [hset]
  revert hdead
  simp only [hasExit, List.all_append, List.any_append, List.all_cons, List.any_cons]
  rcases itemMove_cases hunder h with ⟨rfl, rfl, ht⟩ | ⟨rfl, hfrom, ht⟩ | ⟨rfl, rfl, ht⟩ |
    ⟨rfl, rfl, ht⟩ | rfl
  · simp only [List.mem_cons, List.not_mem_nil, or_false] at ht
    rcases ht with rfl | rfl | rfl | rfl <;> simp +contextual
  · simp only [List.mem_cons, List.not_mem_nil, or_false] at hfrom
    rcases hfrom with rfl | rfl <;> simp
  · simp
  · simp
  · simp

/-- A mix without an exit stays one. -/
lemma Coherent.dead_step (h : s.Coherent) (hdead : s.hasExit = false) (hmove : s.step move = .ok s')
    : s'.hasExit = false := by
  cases move with
  | parent target =>
      obtain ⟨hallowed, -⟩ := Statuses.step_parent.1 hmove
      simp [hasExit_of_parentAllowed hallowed] at hdead
  | item index target =>
      obtain ⟨child, hchild, hallowed, rfl⟩ := Statuses.step_item.1 hmove
      exact dead_step_item hchild (h.all_mem _ (List.mem_of_getElem? hchild)) hallowed hdead

lemma hasExit_of_terminal (h : s.parent.isTerminal = true) : s.hasExit = true := by
  obtain ⟨p, cs⟩ := s
  revert h
  cases p <;> simp [ParentOperationState.isTerminal, parentTransitions, hasExit]

/-- The mixes of child statuses from which a terminal parent status can be reached. -/
theorem Coherent.finishes_iff_hasExit (h : s.Coherent) : s.Finishes ↔ s.hasExit = true := by
  refine ⟨?_, h.finishes⟩
  rintro ⟨t, hreach, hterm⟩
  by_contra hdead
  have hinv : t.Coherent ∧ t.hasExit = false := by
    refine hreach.invariant (I := fun s => s.Coherent ∧ s.hasExit = false) ?_
      ⟨h, by simpa using hdead⟩
    rintro u move u' ⟨hcoh, hd⟩ hmove
    exact ⟨hcoh.step hmove, hcoh.dead_step hd hmove⟩
  simp [hasExit_of_terminal hterm] at hinv

/-- What an operation owes its owner in every state: while its parent status is not terminal,
some move is accepted, and some sequence of accepted moves ends in a terminal parent status. -/
def NotStuck (s : Statuses) : Prop :=
  s.parent.isTerminal = false → (∃ move s', s.step move = .ok s') ∧ s.Finishes

theorem Coherent.notStuck_iff_hasExit (h : s.Coherent) : s.NotStuck ↔ s.hasExit = true := by
  constructor
  · intro hlive
    by_cases hterm : s.parent.isTerminal = true
    · exact hasExit_of_terminal hterm
    · exact h.finishes_iff_hasExit.1 (hlive (by simpa using hterm)).2
  · intro hexit hterm
    have hfin := h.finishes hexit
    refine ⟨?_, hfin⟩
    obtain ⟨t, hreach, hterm'⟩ := hfin
    rcases Relation.ReflTransGen.cases_head hreach with rfl | ⟨u, ⟨move, hmove⟩, -⟩
    · simp [hterm] at hterm'
    · exact ⟨move, u, hmove⟩

end Statuses

end Hosted
end MercuryTools
