import MercuryTools.Db.ValidationStore
import MercuryTools.Framework.Checks
import MercuryTools.Framework.KeyedTable

/-!
# Publishing while others publish

Any number of calls of `publish` run side by side and are cut off anywhere.  A request reads or
inserts all of its rows at once; it may fail, and an insertion whose answer is lost has still been
made, or is made later.

Rows are added and never change (`publishing_runs`).  What a call that returns was given is stored,
and it counts rows that it inserted itself.
-/

namespace MercuryTools.Db

open Programs Checks

variable {Content Row : Type} (table : ValidationTable Content Row)

/-! ## The table -/

/-- What a request does: nothing where it fails; and an insertion may take place without an
answer. -/
inductive StoreRequest.Happens :
    List Row → StoreRequest Content → Option (List Row) → List Row → Prop
  | failed (stored : List Row) (req : StoreRequest Content) : Happens stored req none stored
  | selected (stored : List Row) (identities : List Identity) :
      Happens stored (.get identities)
        (some (stored.filter fun row => table.identity row ∈ identities)) stored
  | inserted (stored new : List Row) (records : List (ValidationKnowledge Content))
      (hnew : records.mapM table.insert = some new) :
      Happens stored (.post records) (some (addedRows table stored new))
        (stored ++ addedRows table stored new)
  | lost (stored new : List Row) (records : List (ValidationKnowledge Content))
      (hnew : records.mapM table.insert = some new) :
      Happens stored (.post records) none (stored ++ addedRows table stored new)

/-- A call of `publish`, which returns its count with the records that it was given. -/
def publishCall [DecidableEq Content] (records : List (ValidationKnowledge Content)) :
    StoreProgram Content Row (List (ValidationKnowledge Content) × Nat) := do
  let count ← publish table records
  return (records, count)

/-- Calls of `publish` on the table.  An insertion that was given up may arrive later. -/
def publishingRules [DecidableEq Content] : Rules (List Row) (StoreRequest Content)
    (fun _ => Option (List Row)) (List (ValidationKnowledge Content) × Nat) where
  happens := StoreRequest.Happens table
  entry program := ∃ records, program = publishCall table records
  outside stored stored' := ∃ (records : List (ValidationKnowledge Content)) (new : List Row),
    (records.map (·.identity)).Nodup ∧ records.mapM table.insert = some new ∧
      stored' = stored ++ addedRows table stored new

/-! ## What a call knows -/

/-- The rows that a call has seen, and those that it has inserted. -/
structure StoreLocal (Row : Type) where
  seen : List Row
  created : List Row

def StoreLocal.next (l : StoreLocal Row) : StoreRequest Content → Option (List Row) → StoreLocal Row
  | _, none => l
  | .get _, some rows => { l with seen := l.seen ++ rows }
  | .post _, some rows => ⟨l.seen ++ rows, l.created ++ rows⟩

/-- An insertion has no two records with the same key. -/
def StoreRequest.Allowed : StoreRequest Content → Prop
  | .get _ => True
  | .post records => (records.map (·.identity)).Nodup

def storeProtocol :
    Protocol (StoreRequest Content) (fun _ => Option (List Row)) (StoreLocal Row) where
  start := ⟨[], []⟩
  allowed _ req := req.Allowed
  next := StoreLocal.next

/-- The call has seen the record. -/
def StoreLocal.Knows (l : StoreLocal Row) (record : ValidationKnowledge Content) : Prop :=
  ∃ row ∈ l.seen, readRow table row = .ok record

/-- What a call knows when it returns. -/
def Returned (l : StoreLocal Row) :
    Option (List (ValidationKnowledge Content) × Nat) → Prop
  | none => True
  | some (records, count) => count = l.created.length ∧
      ∀ record ∈ records, ∃ validated, validatedValidation table record = .ok validated ∧
        l.Knows table validated

section

variable {table} {l l' : StoreLocal Row} {record : ValidationKnowledge Content}

lemma StoreLocal.Knows.mono (h : l.Knows table record) (hseen : l.seen ⊆ l'.seen) :
    l'.Knows table record := by
  obtain ⟨row, hrow, hread⟩ := h
  exact ⟨row, hseen hrow, hread⟩

lemma eq_of_matching [DecidableEq Content] {actual expected : ValidationKnowledge Content}
    (h : matchingValidationRecord actual expected = true) : actual = expected := by
  rw [matchingValidationRecord, Bool.and_eq_true, decide_eq_true_eq] at h
  exact h.2

lemma keeps_request {Q : StoreLocal Row → Option (List Row) → Prop} {req : StoreRequest Content}
    (hallowed : req.Allowed) (hok : ∀ rows, Q (l.next req (some rows)) (some rows))
    (hfail : Q l none) : Keeps storeProtocol Q (request req) l := by
  refine keeps_perform.2 ⟨hallowed, fun answer => ?_⟩
  cases answer with
  | none => exact hfail
  | some rows => exact hok rows

/-! ## The batch that is published -/

/-- What the dictionary of `_validated_publish_batch` has. -/
structure Collected (validated : List (ValidationKnowledge Content))
    (byIdentity : Dict Identity (ValidationKnowledge Content)) : Prop where
  keys : byIdentity.keys.Nodup
  identity : ∀ id record, byIdentity.get id = some record → record.identity = id
  complete : ∀ record ∈ validated, byIdentity.get record.identity = some record

lemma Collected.step [DecidableEq Content] {before : List (ValidationKnowledge Content)}
    {state state' : Dict Identity (ValidationKnowledge Content) ×
      Dict String (ValidationKnowledge Content)}
    (h : Collected before state.1) (hstep : addRecord state record = .ok state') :
    Collected (before ++ [record]) state'.1 := by
  obtain ⟨byIdentity, byEvidenceId⟩ := state
  unfold addRecord at hstep
  dsimp only at hstep
  cases hget : byIdentity.get record.identity with
  | some existing =>
      rw [hget] at hstep
      dsimp only at hstep
      split at hstep
      · cases hstep
      next heq =>
          cases hstep
          refine ⟨h.keys, h.identity, List.forall_mem_append.2 ⟨h.complete, ?_⟩⟩
          rw [List.forall_mem_singleton, hget, Decidable.not_not.1 heq]
  | none =>
      rw [hget] at hstep
      dsimp only at hstep
      split at hstep
      · cases hstep
      · cases hstep
        refine ⟨Dict.nodup_keys_set h.keys _ _, fun id other hother => ?_,
          List.forall_mem_append.2 ⟨fun other hother => ?_, ?_⟩⟩
        · rw [Dict.get_set] at hother
          split at hother
          next heq =>
              cases hother
              exact heq.symm
          next => exact h.identity id other hother
        · have hcomplete := h.complete other hother
          rw [Dict.get_set_of_ne]
          · exact hcomplete
          · rintro heq
            rw [heq, hget] at hcomplete
            cases hcomplete
        · rw [List.forall_mem_singleton]
          exact Dict.get_set_self _ _ _

variable {validated records pending unresolved : List (ValidationKnowledge Content)} {α : Type}
  {existing : Dict Identity (ValidationKnowledge Content)} {created : List Identity}

lemma Collected.map_identity {byIdentity : Dict Identity (ValidationKnowledge Content)}
    (h : Collected validated byIdentity) {ids : List Identity}
    (hids : ∀ id ∈ ids, id ∈ byIdentity.keys) :
    (ids.filterMap byIdentity.get).map (·.identity) = ids := by
  rw [List.map_filterMap]
  refine (List.filterMap_congr fun id hid => ?_).trans List.filterMap_some
  obtain ⟨other, hother⟩ := Option.isSome_iff_exists.1 (Dict.isSome_get.2 (hids id hid))
  rw [hother, Option.map_some, h.identity id other hother]

/-- The records that are published have distinct keys, and every record that is given is one. -/
lemma validatedPublishBatch_spec [DecidableEq Content]
    (h : validatedPublishBatch table records = .ok validated) :
    (validated.map (·.identity)).Nodup ∧ ∀ record ∈ records, ∃ record' ∈ validated,
      validatedValidation table record = .ok record' := by
  simp only [validatedPublishBatch, bind_eq_ok, pure_eq_ok] at h
  obtain ⟨all, hall, ⟨byIdentity, byEvidenceId⟩, hfold, rfl⟩ := h
  have hcollected : Collected all byIdentity := by
    refine foldlM_ok_append (I := fun before state => Collected before state.1)
      (fun before record state state' h hstep => h.step hstep) ?_ hfold
    exact ⟨List.nodup_nil, fun id record h => (by cases h), List.forall_mem_nil _⟩
  have hperm := StableSorting.perm_sortBy id byIdentity.keys
  refine ⟨?_, fun record hrecord => ?_⟩
  · rw [hcollected.map_identity fun id hid => hperm.mem_iff.1 hid]
    exact hperm.nodup_iff.2 hcollected.keys
  · obtain ⟨record', hmem, hrecord'⟩ := 
      KeyedTable.exists_of_forall₂ (mapM_eq_ok.1 hall).flip hrecord
    have hget := hcollected.complete record' hmem
    refine ⟨record', List.mem_filterMap.2 ⟨_, hperm.mem_iff.2 ?_, hget⟩, hrecord'⟩
    rw [← Dict.isSome_get, hget]
    rfl

/-! ## Batches -/

lemma flatten_map_range_take (xs : List α) (size n : Nat) :
    ((List.range n).map fun i => (xs.drop (size * i)).take size).flatten = xs.take (size * n) := by
  induction n with
  | zero => rfl
  | succ n ih =>
      rw [List.range_succ, List.map_append, List.flatten_append, ih, Nat.mul_succ, List.take_add]
      exact congrArg _ (List.append_nil _)

/-- The batches that are inserted are the records. -/
lemma flatten_validationBatches (records : List α) :
    (validationBatches records).flatten = records := by
  refine (flatten_map_range_take records publishBatchSize _).trans (List.take_of_length_le ?_)
  rw [publishBatchSize]
  omega

/-! ## What a call keeps -/

/-- A call has seen what it had seen before. -/
lemma keeps_grows {Q : StoreLocal Row → Option α → Prop} {program : StoreProgram Content Row α}
    (h : Keeps storeProtocol Q program l) :
    Keeps storeProtocol (fun l' result => l.seen ⊆ l'.seen ∧ Q l' result) program l := by
  induction program generalizing l with
  | done a => exact ⟨List.Subset.refl _, h⟩
  | fail code => exact ⟨List.Subset.refl _, h⟩
  | perform req next ih =>
      refine ⟨h.1, fun answer => (ih answer (h.2 answer)).mono fun l' result hresult => ?_⟩
      have hnext : l.seen ⊆ (storeProtocol.next l req answer).seen := by
        cases answer with
        | none => exact List.Subset.refl _
        | some rows => cases req <;> exact List.subset_append_left _ _
      exact ⟨List.Subset.trans hnext hresult.1, hresult.2⟩

/-- The entries of a dictionary are records that the call has seen. -/
def Found (table : ValidationTable Content Row) (l : StoreLocal Row)
    (existing : Dict Identity (ValidationKnowledge Content)) : Prop :=
  ∀ id record, existing.get id = some record → l.Knows table record

lemma Found.addExisting {expected : List Identity}
    {existing' : Dict Identity (ValidationKnowledge Content)} (h : Found table l existing)
    (hrecord : l.Knows table record) (hstep : addExisting expected existing record = .ok existing') :
    Found table l existing' := by
  rw [Db.addExisting] at hstep
  split at hstep
  · cases hstep
  · cases hstep
    intro id other hother
    rw [Dict.get_set] at hother
    split at hother
    · cases hother
      exact hrecord
    · exact h id other hother

/-- The records that an answer reads as are known. -/
lemma knows_of_readRows {rows : List Row} (h : rows.mapM (readRow table) = .ok records)
    (hseen : rows ⊆ l.seen) : ∀ record ∈ records, l.Knows table record := by
  intro record hrecord
  obtain ⟨row, hrow, hread⟩ := KeyedTable.exists_of_forall₂ (mapM_eq_ok.1 h) hrecord
  exact ⟨row, hseen hrow, hread⟩

lemma keeps_existingFrom (batches : List (List (ValidationKnowledge Content)))
    (h : Found table l existing) :
    Keeps storeProtocol (fun l' result => l'.created = l.created ∧
      ∀ existing', result = some existing' → Found table l' existing')
      (existingFrom table existing batches) l := by
  induction batches generalizing l existing with
  | nil =>
      refine ⟨rfl, fun existing' hresult => ?_⟩
      cases hresult
      exact h
  | cons batch batches ih =>
      refine Keeps.bind (Q := fun l' result => l'.created = l.created ∧ Found table l' existing ∧
        ∀ rows, result = some rows → rows ⊆ l'.seen) ?_ ?_ ?_
      · refine keeps_request trivial (fun rows => ⟨rfl, ?_, ?_⟩) ⟨rfl, h, fun rows h => by cases h⟩
        · exact fun id record hget => (h id record hget).mono (List.subset_append_left _ _)
        · rintro _ ⟨⟩
          exact List.subset_append_right _ _
      · rintro l' rows ⟨hcreated, hfound, hseen⟩
        refine Keeps.bind (Q := fun l'' result => l'' = l' ∧
          ∀ existing', result = some existing' → Found table l' existing') ?_ ?_ ?_
        · refine keeps_ofExcept (fun existing' hread => ⟨rfl, ?_⟩) ⟨rfl, fun _ h => by cases h⟩
          rintro _ ⟨⟩
          obtain ⟨records, hrecords, hfold⟩ := bind_eq_ok.1 hread
          exact foldlM_ok (fun record hrecord s s' hs hstep => hs.addExisting
            (knows_of_readRows hrecords (hseen rows rfl) record hrecord) hstep) hfound hfold
        · rintro _ existing' ⟨rfl, hfound'⟩
          exact (ih (hfound' existing' rfl)).mono fun l'' result hresult =>
            ⟨hresult.1.trans hcreated, hresult.2⟩
        · rintro _ ⟨rfl, -⟩
          exact ⟨hcreated, fun _ h => by cases h⟩
      · rintro l' ⟨hcreated, -, -⟩
        exact ⟨hcreated, fun _ h => by cases h⟩

lemma keeps_existingValidations (records : List (ValidationKnowledge Content)) :
    Keeps storeProtocol (fun l' result => l.seen ⊆ l'.seen ∧ l'.created = l.created ∧
      ∀ existing, result = some existing → Found table l' existing)
      (existingValidations table records) l := by
  refine keeps_grows (Keeps.bind (Q := fun l' _ => l' = l) ?_ ?_ ?_)
  · exact keeps_ofExcept (fun _ _ => rfl) rfl
  · rintro _ batches rfl
    exact keeps_existingFrom batches fun id record h => by cases h
  · rintro _ rfl
    exact ⟨rfl, fun _ h => by cases h⟩

variable [DecidableEq Content]

/-- A record that is not pending is stored. -/
lemma mem_pending_or_knows (hfound : Found table l existing)
    (h : records.foldlM (addPending existing) [] = .ok pending) :
    pending.Sublist records ∧ ∀ record ∈ records, record ∈ pending ∨ l.Knows table record := by
  refine foldlM_ok_append (I := fun before pending => pending.Sublist before ∧
    ∀ record ∈ before, record ∈ pending ∨ l.Knows table record) ?_ ⟨.slnil, List.forall_mem_nil _⟩ h
  rintro before record pending pending' ⟨hsub, hbefore⟩ hstep
  rw [addPending] at hstep
  split at hstep
  · cases hstep
    refine ⟨hsub.append_right [record], List.forall_mem_append.2 ⟨fun other hother => ?_, ?_⟩⟩
    · exact (hbefore other hother).imp_left fun h => List.mem_append_left _ h
    · rw [List.forall_mem_singleton]
      exact .inl (List.mem_append_right _ (List.mem_singleton_self record))
  next stored hget =>
      split at hstep
      next hmatching =>
        cases hstep
        refine ⟨hsub.trans (List.sublist_append_left _ _), List.forall_mem_append.2 ⟨hbefore, ?_⟩⟩
        rw [List.forall_mem_singleton]
        exact .inr (eq_of_matching hmatching ▸ hfound _ _ hget)
      · cases hstep

/-- An unresolved record that is found is stored. -/
lemma knows_of_checkUnresolved (hfound : Found table l existing)
    (h : unresolved.forM (checkUnresolved existing) = .ok ()) :
    ∀ record ∈ unresolved, l.Knows table record := by
  intro record hrecord
  have hcheck := forM_eq_ok.1 h record hrecord
  rw [checkUnresolved] at hcheck
  split at hcheck
  · cases hcheck
  next stored hget =>
      split at hcheck
      next hmatching => exact eq_of_matching hmatching ▸ hfound _ _ hget
      · cases hcheck

/-- What is known after batches have been inserted. -/
structure Inserted (table : ValidationTable Content Row) (l : StoreLocal Row)
    (batches : List (ValidationKnowledge Content)) (created : List Identity)
    (unresolved : List (ValidationKnowledge Content)) : Prop where
  counted : created.length = l.created.length
  created : ∀ id ∈ created, ∃ record ∈ batches, record.identity = id ∧ l.Knows table record
  resolved : ∀ record ∈ batches, record ∈ unresolved ∨ l.Knows table record

/-- The rows that an insertion returned are records of the batch. -/
lemma addCreated_fold {batch returned : List (ValidationKnowledge Content)}
    {created' : List Identity} (hreturned : ∀ record ∈ returned, l.Knows table record)
    (h : returned.foldlM (addCreated batch) created = .ok created') :
    created'.length = created.length + returned.length ∧ ∀ id ∈ created', id ∈ created ∨
      ∃ record ∈ batch, record.identity = id ∧ l.Knows table record := by
  refine foldlM_ok_append (I := fun before created' => (∀ record ∈ before, record ∈ returned) →
    created'.length = created.length + before.length ∧ ∀ id ∈ created', id ∈ created ∨
      ∃ record ∈ batch, record.identity = id ∧ l.Knows table record)
    (fun before record s s' hbefore hstep hmem => ?_)
    (fun _ => ⟨rfl, fun id hid => .inl hid⟩) h fun record hrecord => hrecord
  obtain ⟨hbeforemem, hrecord⟩ := List.forall_mem_append.1 hmem
  obtain ⟨hlength, hcreated⟩ := hbefore hbeforemem
  rw [addCreated] at hstep
  split at hstep
  · cases hstep
  next expected hfind =>
      split at hstep
      · cases hstep
      · split at hstep
        next hmatching =>
          cases hstep
          refine ⟨?_, List.forall_mem_append.2 ⟨hcreated, ?_⟩⟩
          · rw [List.length_append, List.length_append, hlength, List.length_singleton,
              List.length_singleton, Nat.add_assoc]
          · rw [List.forall_mem_singleton]
            have hknows := hreturned record (List.forall_mem_singleton.1 hrecord)
            have hmem := List.mem_of_find?_eq_some hfind
            exact .inr ⟨record, eq_of_matching hmatching ▸ hmem, rfl, hknows⟩
        · cases hstep

/-- An insertion that was answered. -/
lemma Inserted.step {before batch unresolved returned : List (ValidationKnowledge Content)}
    {created created' : List Identity} {rows : List Row}
    (h : Inserted table l before created unresolved)
    (hnodup : ((before ++ batch).map (·.identity)).Nodup)
    (hrows : rows.mapM (readRow table) = .ok returned)
    (hfold : returned.foldlM (addCreated batch) created = .ok created') :
    Inserted table (l.next (.post batch) (some rows)) (before ++ batch) created'
      (unresolved ++ batch.filter (·.identity ∉ created')) := by
  have hgrows : l.seen ⊆ (l.next (.post batch) (some rows)).seen := List.subset_append_left _ _
  have hreturned := knows_of_readRows (l := l.next (.post batch) (some rows)) hrows
    (List.subset_append_right _ _)
  obtain ⟨hlength, hcreated'⟩ := addCreated_fold hreturned hfold
  have hmem : ∀ id ∈ created', ∃ record ∈ before ++ batch, record.identity = id ∧
      (l.next (.post batch) (some rows)).Knows table record := by
    intro id hid
    rcases hcreated' id hid with hid | ⟨record, hrecord, heq, hknows⟩
    · obtain ⟨record, hrecord, heq, hknows⟩ := h.created id hid
      exact ⟨record, List.mem_append_left _ hrecord, heq, hknows.mono hgrows⟩
    · exact ⟨record, List.mem_append_right _ hrecord, heq, hknows⟩
  refine ⟨?_, hmem, List.forall_mem_append.2 ⟨fun record hrecord => ?_, fun record hrecord => ?_⟩⟩
  · have hreadRows := (mapM_eq_ok.1 hrows).length_eq
    have hnext : (l.next (.post batch) (some rows)).created = l.created ++ rows := rfl
    rw [hlength, hnext, List.length_append, hreadRows, h.counted]
  · exact (h.resolved record hrecord).imp (List.mem_append_left _) fun hknows => hknows.mono hgrows
  · by_cases hid : record.identity ∈ created'
    · -- The batches have one record with this key.
      obtain ⟨other, hother, heq, hknows⟩ := hmem _ hid
      have hsame := KeyedTable.eq_of_key_eq hnodup hother (List.mem_append_right _ hrecord) heq
      exact .inr (hsame ▸ hknows)
    · exact .inl (List.mem_append_right _ (List.mem_filter.2 ⟨hrecord, decide_eq_true hid⟩))

lemma keeps_postBatches (batches : List (List (ValidationKnowledge Content)))
    {before : List (ValidationKnowledge Content)} (h : Inserted table l before created unresolved)
    (hnodup : ((before ++ batches.flatten).map (·.identity)).Nodup) :
    Keeps storeProtocol (fun l' result => ∀ created' unresolved',
      result = some (created', unresolved') →
        Inserted table l' (before ++ batches.flatten) created' unresolved')
      (postBatches table created unresolved batches) l := by
  induction batches generalizing l before created unresolved with
  | nil =>
      rintro _ _ ⟨⟩
      rwa [List.flatten_nil, List.append_nil]
  | cons batch batches ih =>
      rw [List.flatten_cons, ← List.append_assoc] at hnodup ⊢
      have hbefore : ((before ++ batch).map (·.identity)).Nodup :=
        hnodup.sublist ((List.sublist_append_left _ _).map _)
      have hbatch : (batch.map (·.identity)).Nodup :=
        hbefore.sublist ((List.sublist_append_right _ _).map _)
      refine Keeps.bind (Q := fun l' result => ∀ rows, result = some rows →
        l' = l.next (.post batch) (some rows)) ?_ ?_ ?_
      · refine keeps_request hbatch (fun rows => ?_) fun rows h => by cases h
        rintro _ ⟨⟩
        rfl
      · intro l' rows hl'
        obtain rfl := hl' rows rfl
        refine Keeps.bind (Q := fun l' result => ∀ created', result = some created' →
          Inserted table l' (before ++ batch) created'
            (unresolved ++ batch.filter (·.identity ∉ created'))) ?_ ?_ ?_
        · refine keeps_ofExcept (fun created' hread => ?_) fun _ h => by cases h
          rintro _ ⟨⟩
          obtain ⟨returned, hreturned, hfold⟩ := bind_eq_ok.1 hread
          exact h.step hbefore hreturned hfold
        · exact fun l'' created' hinserted => ih (hinserted created' rfl) hnodup
        · exact fun _ _ _ _ h => by cases h
      · exact fun _ _ _ _ h => by cases h

/-- The records that were not created are looked up again. -/
lemma keeps_checkUnresolved {count : Nat} :
    Keeps storeProtocol (fun l' result => l.seen ⊆ l'.seen ∧ l'.created = l.created ∧
      ∀ count', result = some count' →
        count' = count ∧ ∀ record ∈ unresolved, l'.Knows table record)
      (do let existing ← existingValidations table unresolved
          .ofExcept (unresolved.forM (checkUnresolved existing))
          return count) l := by
  refine (keeps_existingValidations unresolved).bind ?_ ?_
  · rintro l' existing ⟨hgrows, hcreated, hfound⟩
    refine Keeps.bind (Q := fun l'' result => l'' = l' ∧ (result = some () →
      ∀ record ∈ unresolved, l'.Knows table record)) ?_ ?_ ?_
    · refine keeps_ofExcept (fun _ hcheck => ⟨rfl, fun _ => ?_⟩) ⟨rfl, fun h => by cases h⟩
      exact knows_of_checkUnresolved (hfound existing rfl) hcheck
    · rintro _ _ ⟨rfl, hknows⟩
      refine ⟨hgrows, hcreated, fun count' hcount => ?_⟩
      cases hcount
      exact ⟨rfl, hknows rfl⟩
    · rintro _ ⟨rfl, -⟩
      exact ⟨hgrows, hcreated, fun _ h => by cases h⟩
  · rintro l' ⟨hgrows, hcreated, -⟩
    exact ⟨hgrows, hcreated, fun _ h => by cases h⟩

lemma keeps_publishPending (hnodup : (pending.map (·.identity)).Nodup) (hcreated : l.created = []) :
    Keeps storeProtocol (fun l' result => l.seen ⊆ l'.seen ∧ ∀ count, result = some count →
      count = l'.created.length ∧ ∀ record ∈ pending, l'.Knows table record)
      (publishPending table pending) l := by
  rw [publishPending]
  split
  next hnil =>
    refine ⟨List.Subset.refl _, fun count hcount => ?_⟩
    cases hcount
    rw [hcreated, hnil]
    exact ⟨rfl, List.forall_mem_nil _⟩
  next =>
    have hempty : Inserted table l [] [] [] :=
      ⟨(congrArg List.length hcreated).symm, List.forall_mem_nil _, List.forall_mem_nil _⟩
    have hpost := keeps_postBatches (validationBatches pending) hempty
      (by rwa [List.nil_append, flatten_validationBatches])
    rw [List.nil_append, flatten_validationBatches] at hpost
    refine (keeps_grows hpost).bind ?_ fun l' h => ⟨h.1, fun _ h => by cases h⟩
    rintro l' ⟨created, unresolved⟩ ⟨hgrows, hinserted⟩
    obtain ⟨hcounted, -, hresolved⟩ := hinserted created unresolved rfl
    dsimp only
    split
    next hnil =>
      refine ⟨hgrows, fun count hcount => ?_⟩
      cases hcount
      refine ⟨hcounted, fun record hrecord => (hresolved record hrecord).resolve_left ?_⟩
      rw [hnil]
      exact List.not_mem_nil
    next =>
      refine keeps_checkUnresolved.mono fun l'' result ⟨hgrows', hcreated', hresult⟩ => ?_
      refine ⟨List.Subset.trans hgrows hgrows', fun count hcount => ?_⟩
      obtain ⟨rfl, hknows⟩ := hresult count hcount
      refine ⟨by rw [hcounted, hcreated'], fun record hrecord => ?_⟩
      exact (hresolved record hrecord).elim (hknows record) fun h => h.mono hgrows'

/-- A call that returns has seen every record that it was given, and counts what it inserted. -/
lemma keeps_publish (records : List (ValidationKnowledge Content)) :
    Keeps storeProtocol (fun l result => ∀ count, result = some count →
      count = l.created.length ∧ ∀ record ∈ records, ∃ validated,
        validatedValidation table record = .ok validated ∧ l.Knows table validated)
      (publish table records) ⟨[], []⟩ := by
  refine Keeps.bind (Q := fun l result => l.created = [] ∧ ∀ validated, result = some validated →
    validatedPublishBatch table records = .ok validated) ?_ ?_ fun _ _ _ h => by cases h
  · refine keeps_ofExcept (fun validated hvalidated => ⟨rfl, ?_⟩) ⟨rfl, fun _ h => by cases h⟩
    rintro _ ⟨⟩
    exact hvalidated
  · rintro l validated ⟨hcreated, hvalidated⟩
    obtain ⟨hnodup, hall⟩ := validatedPublishBatch_spec (hvalidated validated rfl)
    refine (keeps_existingValidations validated).bind ?_ fun _ _ _ h => by cases h
    rintro l' existing ⟨-, hcreated', hfound⟩
    refine Keeps.bind (Q := fun l'' result => l'' = l' ∧ ∀ pending, result = some pending →
      validated.foldlM (addPending existing) [] = .ok pending) ?_ ?_ fun _ _ _ h => by cases h
    · refine keeps_ofExcept (fun pending hpending => ⟨rfl, ?_⟩) ⟨rfl, fun _ h => by cases h⟩
      rintro _ ⟨⟩
      exact hpending
    · rintro _ pending ⟨rfl, hpending⟩
      obtain ⟨hsub, hknown⟩ := mem_pending_or_knows (hfound existing rfl) (hpending pending rfl)
      refine (keeps_publishPending (hnodup.sublist (hsub.map _))
        (hcreated'.trans hcreated)).mono ?_
      rintro l'' result ⟨hgrows, hresult⟩ count hcount
      refine ⟨(hresult count hcount).1, fun record hrecord => ?_⟩
      obtain ⟨record', hmem, hrecord'⟩ := hall record hrecord
      exact ⟨record', hrecord', (hknown record' hmem).elim ((hresult count hcount).2 record')
        fun h => h.mono hgrows⟩

lemma keeps_publishCall (records : List (ValidationKnowledge Content)) :
    Keeps storeProtocol (Returned table) (publishCall table records) ⟨[], []⟩ := by
  refine (keeps_publish records).bind ?_ fun _ _ => trivial
  exact fun l count h => h count rfl

end

/-! ## Runs -/

abbrev StorePool (Content Row : Type) : Type :=
  Pool (List Row) (StoreRequest Content) (fun _ => Option (List Row))
    (List (ValidationKnowledge Content) × Nat)

abbrev StoreTask (Content Row : Type) : Type :=
  Task (StoreRequest Content) (fun _ => Option (List Row))
    (List (ValidationKnowledge Content) × Nat)

/-- The rows that the insertions of a call were answered with. -/
def insertedRows (task : StoreTask Content Row) : List Row :=
  task.log.flatMap fun
    | ⟨.post _, some rows⟩ => rows
    | _ => []

/-- What a call that returned was given, and its count. -/
def returned? (task : StoreTask Content Row) : Option (List (ValidationKnowledge Content) × Nat) :=
  match task.rest with
  | .done result => some result
  | _ => none

/-- The sum of the counts that were returned. -/
def totalCount (tasks : List (StoreTask Content Row)) : Nat :=
  (tasks.filterMap returned?).foldr (fun result total => result.2 + total) 0

/-- No two rows have the same key.  What a call that returned was given is stored as it was given.
It counts the rows that it inserted, and no other call does. -/
structure PublishLaw (initial : List Row) (p : StorePool Content Row) : Prop where
  keys : (p.shared.map table.identity).Nodup
  stored : ∀ task ∈ p.tasks, ∀ records count, returned? task = some (records, count) →
    ∀ record ∈ records, ∃ row ∈ p.shared, table.identity row = record.identity ∧
      ∃ validated, validatedValidation table record = .ok validated ∧
        readRow table row = .ok validated
  counted : ∀ task ∈ p.tasks, ∀ records count, returned? task = some (records, count) →
    count = (insertedRows task).length
  once : (p.tasks.flatMap insertedRows).Nodup
  added : p.tasks.flatMap insertedRows ⊆ p.shared.drop initial.length
  total : totalCount p.tasks ≤ (p.shared.drop initial.length).length

section

variable {table} {stored new : List Row}

lemma created_after (task : StoreTask Content Row) :
    (storeProtocol.after task.log).created = insertedRows task := by
  obtain ⟨log, rest⟩ := task
  rw [insertedRows]
  induction log using List.reverseRecOn with
  | nil => rfl
  | append_singleton log entry ih =>
      obtain ⟨req, answer⟩ := entry
      rw [Protocol.after_append, List.flatMap_append, ← ih]
      cases req <;> cases answer <;> simp [storeProtocol, StoreLocal.next]

lemma map_identity_insert {records : List (ValidationKnowledge Content)}
    (h : records.mapM table.insert = some new) :
    new.map table.identity = records.map (·.identity) := by
  induction records generalizing new with
  | nil =>
      rw [List.mapM_nil] at h
      cases h
      rfl
  | cons record records ih =>
      rw [List.mapM_cons] at h
      obtain ⟨row, hrow, h⟩ := Option.bind_eq_some_iff.1 h
      obtain ⟨rows, hrows, h⟩ := Option.bind_eq_some_iff.1 h
      cases h
      rw [List.map_cons, List.map_cons, ih hrows, table.identity_insert record row hrow]

/-- An insertion adds rows whose keys are new. -/
lemma nodup_addedRows (hkeys : (stored.map table.identity).Nodup)
    (hnew : (new.map table.identity).Nodup) :
    ((stored ++ addedRows table stored new).map table.identity).Nodup := by
  rw [List.map_append]
  refine List.Nodup.append hkeys (hnew.sublist (List.filter_sublist.map _)) ?_
  intro id hstored hadded
  obtain ⟨row, hrow, rfl⟩ := List.mem_map.1 hadded
  exact of_decide_eq_true (List.mem_filter.1 hrow).2 hstored

/-- An answer is about rows that are stored, and an insertion is answered with those that it
added. -/
lemma StoreRequest.Happens.spec {stored' : List Row} {req : StoreRequest Content}
    {answer : Option (List Row)} (h : StoreRequest.Happens table stored req answer stored')
    (hallowed : req.Allowed) (hkeys : (stored.map table.identity).Nodup) :
    (stored'.map table.identity).Nodup ∧ ∃ added, stored' = stored ++ added ∧
      ∀ l : StoreLocal Row, l.seen ⊆ stored → (l.next req answer).seen ⊆ stored' ∧
        ∃ created, (l.next req answer).created = l.created ++ created ∧
          (created = [] ∨ created = added) := by
  cases h with
  | failed =>
      exact ⟨hkeys, [], (List.append_nil _).symm, fun l hl => ⟨hl, [], (List.append_nil _).symm,
        .inl rfl⟩⟩
  | selected identities =>
      refine ⟨hkeys, [], (List.append_nil _).symm, fun l hl => ⟨?_, [], (List.append_nil _).symm,
        .inl rfl⟩⟩
      exact List.append_subset.2 ⟨hl, List.filter_subset_self _⟩
  | inserted new records hnew =>
      refine ⟨nodup_addedRows hkeys (map_identity_insert hnew ▸ hallowed), _, rfl, fun l hl => ?_⟩
      refine ⟨List.append_subset.2 ⟨List.subset_append_of_subset_left _ hl, ?_⟩, _, rfl, .inr rfl⟩
      exact List.subset_append_right _ _
  | lost new records hnew =>
      refine ⟨nodup_addedRows hkeys (map_identity_insert hnew ▸ hallowed), _, rfl, fun l hl => ?_⟩
      exact ⟨List.subset_append_of_subset_left _ hl, [], (List.append_nil _).symm, .inl rfl⟩

lemma perm_flatMap_set {T : Type} {tasks : List T} {i : Nat} {task task' : T} {f : T → List Row}
    {rows : List Row} (htask : tasks[i]? = some task) (hf : f task' = f task ++ rows) :
    ((tasks.set i task').flatMap f).Perm (tasks.flatMap f ++ rows) := by
  induction tasks generalizing i with
  | nil => cases htask
  | cons head tasks ih =>
      cases i with
      | zero =>
          cases htask
          rw [List.set_cons_zero, List.flatMap_cons, List.flatMap_cons, hf, List.append_assoc,
            List.append_assoc]
          exact List.perm_append_comm.append_left _
      | succ i =>
          rw [List.set_cons_succ, List.flatMap_cons, List.flatMap_cons, List.append_assoc]
          exact (ih htask).append_left _

end

structure Sound (initial : List Row) (p : StorePool Content Row) : Prop where
  keeps : p.Keeps storeProtocol (Returned table)
  keys : (p.shared.map table.identity).Nodup
  kept : initial <+: p.shared
  seen : ∀ task ∈ p.tasks, (storeProtocol.after task.log).seen ⊆ p.shared
  once : ((p.tasks.flatMap insertedRows).map table.identity).Nodup
  added : p.tasks.flatMap insertedRows ⊆ p.shared.drop initial.length

section

variable {table} {initial : List Row} {p p' : StorePool Content Row}

/-- Rows are added to the table, and some of them are counted. -/
lemma Sound.add (h : Sound table initial p) {added counted : List Row}
    (hkeys : ((p.shared ++ added).map table.identity).Nodup)
    (hcounted : counted = [] ∨ counted = added) :
    ((p.tasks.flatMap insertedRows ++ counted).map table.identity).Nodup ∧
      p.tasks.flatMap insertedRows ++ counted ⊆ (p.shared ++ added).drop initial.length := by
  rw [List.drop_append_of_le_length h.kept.length_le]
  rcases hcounted with rfl | rfl
  · rw [List.append_nil]
    exact ⟨h.once, List.subset_append_of_subset_left _ h.added⟩
  · refine ⟨?_, List.append_subset.2 ⟨List.subset_append_of_subset_left _ h.added,
      List.subset_append_right _ _⟩⟩
    rw [List.map_append] at hkeys ⊢
    obtain ⟨-, hadded, hdisjoint⟩ := List.nodup_append'.1 hkeys
    refine List.Nodup.append h.once hadded fun id hid => hdisjoint ?_
    obtain ⟨row, hrow, rfl⟩ := List.mem_map.1 hid
    exact List.mem_map_of_mem (List.mem_of_mem_drop (h.added hrow))

variable {task : StoreTask Content Row} {validated : ValidationKnowledge Content}

lemma rest_of_returned {result : List (ValidationKnowledge Content) × Nat}
    (h : returned? task = some result) : task.rest = .done result := by
  rw [returned?] at h
  split at h
  next heq =>
    cases h
    exact heq
  · cases h

lemma Sound.returned (h : Sound table initial p) (htask : task ∈ p.tasks)
    {records : List (ValidationKnowledge Content)} {count : Nat}
    (hreturned : returned? task = some (records, count)) :
    count = (insertedRows task).length ∧ ∀ record ∈ records, ∃ validated,
      validatedValidation table record = .ok validated ∧
        ∃ row ∈ p.shared, readRow table row = .ok validated := by
  have hkeeps := h.keeps task htask
  rw [rest_of_returned hreturned, keeps_done, Returned, created_after] at hkeeps
  refine ⟨hkeeps.1, fun record hrecord => ?_⟩
  obtain ⟨validated, hvalidated, row, hrow, hread⟩ := hkeeps.2 record hrecord
  exact ⟨validated, hvalidated, row, h.seen task htask hrow, hread⟩

lemma totalCount_le {tasks : List (StoreTask Content Row)}
    (h : ∀ task ∈ tasks, ∀ records count, returned? task = some (records, count) →
      count = (insertedRows task).length) :
    totalCount tasks ≤ (tasks.flatMap insertedRows).length := by
  induction tasks with
  | nil => exact Nat.le_refl 0
  | cons task tasks ih =>
      obtain ⟨htask, htasks⟩ := List.forall_mem_cons.1 h
      rw [List.flatMap_cons, List.length_append]
      cases hreturned : returned? task with
      | none =>
          rw [totalCount, List.filterMap_cons_none hreturned]
          exact (ih htasks).trans (Nat.le_add_left _ _)
      | some result =>
          rw [totalCount, List.filterMap_cons_some hreturned, List.foldr_cons,
            htask result.1 result.2 hreturned]
          exact Nat.add_le_add_left (ih htasks) _

lemma identity_validated {record : ValidationKnowledge Content}
    (h : validatedValidation table record = .ok validated) :
    validated.identity = record.identity := by
  rw [validatedValidation] at h
  split at h
  · split at h
    · split at h
      · cases h
      · cases h
        rfl
    · cases h
  · cases h

lemma identity_of_readRow {row : Row} (h : readRow table row = .ok validated) :
    table.identity row = validated.identity := by
  rw [readRow] at h
  split at h
  next record hselect =>
    split at h
    next record' hvalidated =>
      cases h
      rw [identity_validated hvalidated, table.identity_select row record hselect]
    · cases h
  · cases h

lemma Sound.law (h : Sound table initial p) : PublishLaw table initial p where
  keys := h.keys
  stored task htask records count hreturned record hrecord := by
    obtain ⟨validated, hvalidated, row, hrow, hread⟩ :=
      (h.returned htask hreturned).2 record hrecord
    refine ⟨row, hrow, ?_, validated, hvalidated, hread⟩
    rw [identity_of_readRow hread, identity_validated hvalidated]
  counted task htask records count hreturned := (h.returned htask hreturned).1
  once := List.Nodup.of_map _ h.once
  added := h.added
  total := (totalCount_le fun _ htask _ _ hreturned => (h.returned htask hreturned).1).trans
    (List.subperm_of_subset (List.Nodup.of_map _ h.once) h.added).length_le

/-! ## Steps -/

variable [DecidableEq Content]

/-- The pools that are reached from a table. -/
def StoreReachable (table : ValidationTable Content Row) (initial : List Row)
    (p : StorePool Content Row) : Prop :=
  Relation.ReflTransGen (Pool.Step (publishingRules table)) ⟨initial, []⟩ p

/-- No step takes a row away or changes it. -/
lemma Sound.step (h : Sound table initial p) (hstep : Pool.Step (publishingRules table) p p') :
    Sound table initial p' ∧ p.shared <+: p'.shared := by
  have hkeeps : p'.Keeps storeProtocol (Returned table) := by
    refine h.keeps.step ?_ hstep
    rintro _ ⟨records, rfl⟩
    exact keeps_publishCall records
  cases hstep with
  | spawn program hentry =>
      refine ⟨⟨hkeeps, h.keys, h.kept, ?_, ?_, ?_⟩, List.prefix_refl _⟩
      · refine List.forall_mem_append.2 ⟨h.seen, ?_⟩
        rw [List.forall_mem_singleton]
        exact List.nil_subset _
      · rw [List.flatMap_append, List.flatMap_singleton]
        exact (List.append_nil (p.tasks.flatMap insertedRows)).symm ▸ h.once
      · rw [List.flatMap_append, List.flatMap_singleton]
        exact (List.append_nil (p.tasks.flatMap insertedRows)).symm ▸ h.added
  | perform i log req next htask answer shared hhappens =>
      have hallowed := (h.keeps _ (List.mem_of_getElem? htask)).1
      have hspec := StoreRequest.Happens.spec hhappens hallowed h.keys
      obtain ⟨hkeys, added, rfl, hnext⟩ := hspec
      obtain ⟨hseen, created, hcreated, hadded⟩ := hnext _ (h.seen _ (List.mem_of_getElem? htask))
      obtain ⟨honce, hsubset⟩ := h.add hkeys hadded
      have hinserted : insertedRows ⟨log ++ [⟨req, answer⟩], next answer⟩ =
          insertedRows ⟨log, .perform req next⟩ ++ created := by
        rw [← created_after, ← created_after, Protocol.after_append]
        exact hcreated
      have hperm := perm_flatMap_set htask hinserted
      refine ⟨⟨hkeeps, hkeys, h.kept.trans (List.prefix_append _ _), fun task hmem => ?_, ?_, ?_⟩,
        List.prefix_append _ _⟩
      · rcases List.mem_or_eq_of_mem_set hmem with hmem | rfl
        · exact List.subset_append_of_subset_left _ (h.seen task hmem)
        · rw [Protocol.after_append]
          exact hseen
      · exact ((hperm.map _).nodup_iff).2 honce
      · exact fun row hrow => hsubset (hperm.mem_iff.1 hrow)
  | outside shared houtside =>
      obtain ⟨records, new, hnodup, hnew, rfl⟩ := houtside
      have hkeys := nodup_addedRows h.keys (map_identity_insert hnew ▸ hnodup)
      obtain ⟨honce, hsubset⟩ := h.add hkeys (.inl rfl)
      rw [List.append_nil] at honce hsubset
      exact ⟨⟨hkeeps, hkeys, h.kept.trans (List.prefix_append _ _), fun task hmem =>
        List.subset_append_of_subset_left _ (h.seen task hmem), honce, hsubset⟩,
        List.prefix_append _ _⟩

lemma StoreReachable.sound (h : StoreReachable table initial p)
    (hkeys : (initial.map table.identity).Nodup) : Sound table initial p := by
  induction h with
  | refl =>
      exact ⟨List.forall_mem_nil _, hkeys, List.prefix_refl _, List.forall_mem_nil _,
        List.nodup_nil, List.nil_subset _⟩
  | tail _ hstep ih => exact (ih.step hstep).1

lemma Sound.prefix_of_steps (h : Sound table initial p)
    (hsteps : Relation.ReflTransGen (Pool.Step (publishingRules table)) p p') :
    p.shared <+: p'.shared := by
  induction hsteps using Relation.ReflTransGen.head_induction_on with
  | refl => exact List.prefix_refl _
  | head hstep _ ih =>
      obtain ⟨hsound, hgrows⟩ := h.step hstep
      exact hgrows.trans (ih hsound)

end

variable [DecidableEq Content]

/-- In every run, what is stored stays as it is, a call that returns has stored what it was given,
and counts what it inserted.  A call that is given another record than one that is stored under its
key does not return. -/
theorem publishing_runs {initial : List Row} {p p' : StorePool Content Row}
    (hkeys : (initial.map table.identity).Nodup) (hreach : StoreReachable table initial p)
    (hsteps : Relation.ReflTransGen (Pool.Step (publishingRules table)) p p') :
    PublishLaw table initial p' ∧ p.shared <+: p'.shared ∧
      ∀ task ∈ p'.tasks, ∀ records count, returned? task = some (records, count) →
        ∀ record ∈ records, ∀ row ∈ p.shared, table.identity row = record.identity →
          readRow table row = validatedValidation table record := by
  have hsound := hreach.sound hkeys
  have hgrows := hsound.prefix_of_steps hsteps
  have hlaw := (StoreReachable.sound (hreach.trans hsteps) hkeys).law
  refine ⟨hlaw, hgrows, fun task htask records count hreturned record hrecord row hrow hid => ?_⟩
  obtain ⟨row', hrow', hid', validated, hvalidated, hread⟩ :=
    hlaw.stored task htask records count hreturned record hrecord
  obtain rfl := KeyedTable.eq_of_key_eq hlaw.keys (hgrows.subset hrow) hrow' (hid.trans hid'.symm)
  exact hread.trans hvalidated.symm

namespace InvoiceEvidence

def evidence : ValidationKnowledge Unit where
  opaqueEvidenceId := "evidence-1"
  runId := "run-1"
  actionId := "invoices.list"
  versionId := "v1"
  connectorId := "flowaccount"
  environment := "test"
  evaluatedAt := ⟨0, some 0⟩
  expiresAt := none
  content := ()

def evidenceTable : ValidationTable Unit (ValidationKnowledge Unit) where
  modelValid _ := true
  requestTargetBytes _ := some 100
  identity := ValidationKnowledge.identity
  insert := some
  select := some
  identity_insert _ _ h := by cases h; rfl
  identity_select _ _ h := by cases h; rfl

/-- Two calls look the record up before one of them inserts it. -/
lemma exists_returned : ∃ p : StorePool Unit (ValidationKnowledge Unit),
    StoreReachable evidenceTable [] p ∧ p.shared = [evidence] ∧
      p.tasks.map returned? = [some ([evidence], 1), some ([evidence], 0)] := by
  have hcall : (publishingRules evidenceTable).entry (publishCall evidenceTable [evidence]) :=
    ⟨[evidence], rfl⟩
  have hlookup : StoreRequest.Happens evidenceTable [] (.get [evidence.identity]) (some []) [] :=
    .selected [] [evidence.identity]
  have hinsert : StoreRequest.Happens evidenceTable [] (.post [evidence]) (some [evidence])
      [evidence] := .inserted [] [evidence] [evidence] rfl
  have hignored : StoreRequest.Happens evidenceTable [evidence] (.post [evidence]) (some [])
      [evidence] := .inserted [evidence] [evidence] [evidence] rfl
  have hstored : StoreRequest.Happens evidenceTable [evidence] (.get [evidence.identity])
      (some [evidence]) [evidence] := .selected [evidence] [evidence.identity]
  exact ⟨_, .head (.spawn _ hcall) <| .head (.spawn _ hcall) <|
    .head (.perform 0 _ _ _ rfl _ _ hlookup) <| .head (.perform 1 _ _ _ rfl _ _ hlookup) <|
    .head (.perform 0 _ _ _ rfl _ _ hinsert) <| .head (.perform 1 _ _ _ rfl _ _ hignored) <|
    .single (.perform 1 _ _ _ rfl _ _ hstored), rfl, rfl⟩

/-- The record is stored and counted once. -/
theorem publishing_runs_invoice : ∃ p : StorePool Unit (ValidationKnowledge Unit),
    p.tasks.map returned? = [some ([evidence], 1), some ([evidence], 0)] ∧
      PublishLaw evidenceTable [] p := by
  obtain ⟨p, hreach, -, hreturned⟩ := exists_returned
  have hempty : (([] : List (ValidationKnowledge Unit)).map evidenceTable.identity).Nodup :=
    List.nodup_nil
  exact ⟨p, hreturned, (publishing_runs evidenceTable hempty hreach .refl).1⟩

end InvoiceEvidence

end MercuryTools.Db
