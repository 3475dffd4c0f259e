import MercuryTools.Framework.OperationRuns
import MercuryTools.Local.CredentialUpdates

/-!
# What is saved is loaded

A run of the store saves and clears credentials in any order.  As long as no value that is saved
ends with a backslash, every save returns, and what a profile loads at any time is what was last
saved for it and not cleared since.

A value that ends with a backslash is not stored: its line ends with `\\"`, in which the reader
takes the second backslash for the escape of the quotation mark.
-/

namespace MercuryTools.Local

open Checks Operation

/-! ## Calls -/

inductive Call where
  | save (profile : Profile) (values : Dict String String) (fields : List String)
  | clear (connectorId? environment? : Option String) (all : Bool)

/-- The status that a save returns, or the number of names that are cleared. -/
def perform (sha : Sha256) (reader : DotenvReader) : Call → StoreOperation (CredentialStatus ⊕ Nat)
  | .save profile values fields => Sum.inl <$> save sha reader profile values fields
  | .clear connectorId? environment? true => Sum.inr <$> clearAll sha reader connectorId? environment?
  | .clear connectorId? environment? false => Sum.inr <$> clear sha reader connectorId? environment?

/-- Fields that can be declared for a profile. -/
structure Declared (names : Set CredentialName) (profile : Profile) (fields : List String) : Prop
    where
  connectorId : validateIdentifier profile.1 = .ok ()
  environment : validateIdentifier profile.2 = .ok ()
  nodup : fields.Nodup
  field : ∀ field ∈ fields, validateIdentifier field = .ok ()
  mem : ∀ field ∈ fields, nameOf profile field ∈ names

namespace Call

/-- Declared fields, and values for some of them that pass the control-character check. -/
def WellFormed (names : Set CredentialName) : Call → Prop
  | .save profile values fields => Declared names profile fields ∧ values.keys.Nodup ∧
      ∀ entry ∈ values, entry.1 ∈ fields ∧ rejectControlOrFormatCharacters entry.2 = .ok ()
  | .clear .. => True

/-- No value ends with a backslash. -/
def EndsPlainly : Call → Prop
  | .save _ values _ => ∀ entry ∈ values, entry.2.toList.getLast? ≠ some '\\'
  | .clear .. => True

/-- What the call makes of the values that are saved. -/
def assign (saved : CredentialName → String) : Call → CredentialName → String
  | .save profile values _ => assignAll saved profile values
  | .clear connectorId? environment? true =>
      if connectorId?.isNone && environment?.isNone then fun _ => "" else saved
  | .clear connectorId? environment? false =>
      if connectorId?.isSome || environment?.isSome then
        clearMatching saved connectorId? environment?
      else saved

/-- Whether the call saves or clears values of the profile. -/
def Touches (profile : Profile) : Call → Prop
  | .save saved _ _ => saved = profile
  | .clear connectorId? environment? _ => profileMatches connectorId? environment? profile = true

end Call

/-- The values last saved and not cleared since. -/
def lastSaved (calls : List Call) : CredentialName → String :=
  calls.foldl Call.assign fun _ => ""

/-- The values of the fields that have one. -/
def loaded (saved : CredentialName → String) (profile : Profile) (fields : List String) :
    Dict String String :=
  fields.filterMap fun field =>
    if saved (nameOf profile field) = "" then none else some (field, saved (nameOf profile field))

/-! ## Operations -/

section

variable {sha : Sha256} {reader : DotenvReader} {names : Set CredentialName}
  {saved : CredentialName → String} {document : Document} {state : Option (List Char)}
  {profile : Profile} {fields : List String}

/-- The file stores the values. -/
def Stores (sha : Sha256) (reader : DotenvReader) (saved : CredentialName → String)
    (state : Option (List Char)) : Prop :=
  ∃ document, readDocument sha reader state = (.ok document, state) ∧ Represents sha saved document

lemma stores_none (sha : Sha256) (reader : DotenvReader) :
    Stores sha reader (fun _ => "") none :=
  ⟨Document.empty, rfl, Represents.empty sha⟩

lemma Declared.valid (h : Declared names profile fields) {field : String} (hfield : field ∈ fields) :
    (nameOf profile field).Valid :=
  ⟨h.connectorId, h.environment, h.field field hfield⟩

lemma Declared.fieldEnvironmentNames_eq_ok (h : Declared names profile fields)
    (hdiffer : NamesDiffer sha names) :
    fieldEnvironmentNames sha profile fields =
      .ok (fields.map fun field => (field, (nameOf profile field).envName sha)) := by
  have hfold : ∀ (declared : List String), (declared ++ fields).Nodup →
      (∀ field ∈ declared, nameOf profile field ∈ names) →
      fields.foldlM (declareField sha profile)
        (declared.map fun field => (field, (nameOf profile field).envName sha)) =
      .ok ((declared ++ fields).map fun field => (field, (nameOf profile field).envName sha)) := by
    have hvalid : ∀ field ∈ fields, (nameOf profile field).Valid := fun _ => h.valid
    have hmem := h.mem
    clear h
    induction fields with
    | nil =>
        intro declared _ _
        rw [List.append_nil]
        rfl
    | cons field fields ih =>
        obtain ⟨hfield, hfields⟩ := List.forall_mem_cons.1 hmem
        obtain ⟨hvalid, hvalids⟩ := List.forall_mem_cons.1 hvalid
        intro declared hnodup hdeclared
        have hsplit : declared ++ field :: fields = (declared ++ [field]) ++ fields := by
          rw [List.append_assoc, List.singleton_append]
        have hnew : field ∉ declared := fun hmem =>
          List.disjoint_of_nodup_append hnodup hmem List.mem_cons_self
        rw [hsplit] at hnodup ⊢
        have hdeclared' : ∀ other ∈ declared ++ [field], nameOf profile other ∈ names := by
          simp only [List.forall_mem_append, List.mem_singleton, forall_eq]
          exact ⟨hdeclared, hfield⟩
        have hkeys : Dict.keys (declared.map fun field =>
            (field, (nameOf profile field).envName sha)) = declared := by
          rw [Dict.keys, List.map_map]
          exact List.map_id declared
        have hnewName : (nameOf profile field).envName sha ∉ Dict.values (declared.map fun field =>
            (field, (nameOf profile field).envName sha)) := by
          rw [Dict.values, List.map_map]
          intro hmem
          obtain ⟨other, hother, heq⟩ := List.mem_map.1 hmem
          have hname := CredentialName.envName_inj hdiffer (hdeclared other hother) hfield heq
          have hfield : other = field := congrArg CredentialName.field hname
          exact hnew (hfield ▸ hother)
        rw [List.foldlM_cons, bind_eq_ok]
        refine ⟨_, ?_, ih hvalids hfields (declared ++ [field]) hnodup hdeclared'⟩
        unfold declareField
        simp only [bind_eq_ok, require_eq_ok]
        refine ⟨_, CredentialName.credentialEnvName_eq_ok.2 ⟨hvalid, rfl⟩, (), ?_, ?_⟩
        · rw [hkeys, List.contains_eq_mem, List.contains_eq_mem, decide_eq_false hnew,
            Bool.not_false, Bool.true_and, Bool.not_eq_true', decide_eq_false_iff_not]
          exact hnewName
        · rw [pure_eq_ok, Dict.set_of_not_mem (by rwa [hkeys]), List.map_append]
          rfl
  have hfield : validateIdentifier "field" = .ok () := by decide
  unfold fieldEnvironmentNames
  rw [bind_eq_ok]
  exact ⟨_, CredentialName.credentialEnvName_eq_ok.2 ⟨⟨h.connectorId, h.environment, hfield⟩, rfl⟩,
    hfold [] h.nodup nofun⟩

/-- A profile loads the values that are saved. -/
theorem Stores.load_eq (h : Stores sha reader saved state) (hsaved : Assignable sha names saved)
    (hdeclared : Declared names profile fields) :
    load sha reader profile fields state = (.ok (loaded saved profile fields), state) := by
  obtain ⟨document, hread, hrepresents⟩ := h
  unfold load
  rw [check_bind_eq_ok]
  refine ⟨_, hdeclared.fieldEnvironmentNames_eq_ok hsaved.differ, ?_⟩
  rw [bind_of_ok hread, pure_apply, List.filterMap_map]
  refine congrArg (fun values => (Except.ok values, state)) (List.filterMap_congr fun field hfield => ?_)
  rw [Function.comp_apply]
  have hget : ∀ value, document.values.get ((nameOf profile field).envName sha) = some value ↔
      saved (nameOf profile field) ≠ "" ∧ saved (nameOf profile field) = value := by
    intro value
    rw [hrepresents.get_values]
    constructor
    · rintro ⟨name, hne, hname, hvalue⟩
      rw [← CredentialName.envName_inj hsaved.differ (hsaved.mem name hne)
        (hdeclared.mem field hfield) hname]
      exact ⟨hne, hvalue⟩
    · exact fun ⟨hne, hvalue⟩ => ⟨_, hne, rfl, hvalue⟩
  dsimp only
  by_cases hempty : saved (nameOf profile field) = ""
  · rw [if_pos hempty]
    cases hvalue : document.values.get ((nameOf profile field).envName sha) with
    | none => rfl
    | some value => exact absurd hempty ((hget value).1 hvalue).1
  · rw [if_neg hempty, (hget _).2 ⟨hempty, rfl⟩]
    dsimp only
    rw [if_neg hempty]

/-- A document is written, and read back. -/
lemma writeDocument_eq_ok (h : Represents sha saved document) (hsaved : Assignable sha names saved)
    (reader : DotenvReader) (state : Option (List Char)) :
    ∃ text, writeDocument sha reader document state = (.ok (), some text) ∧
      Stores sha reader saved (some text) := by
  obtain ⟨parsed, hparse, hparsed⟩ := parseDotenvText_sortedLines reader h hsaved
  refine ⟨textOf (document.sortedLines sha), ?_, parsed, ?_, hparsed⟩
  · unfold writeDocument
    rw [check_bind_eq_ok]
    refine ⟨_, serializeDocument_eq_ok h hsaved, ?_⟩
    rw [check_bind_eq_ok]
    refine ⟨_, hparse, ?_⟩
    rw [check_bind_eq_ok]
    exact ⟨(), require_eq_ok.2 (hparsed.same h), rfl⟩
  · exact congrArg (fun read => (read, some (textOf (document.sortedLines sha)))) hparse

variable {values : Dict String String} {connectorId? environment? : Option String}
  {name : CredentialName} {call : Call}

lemma Assignable.assignAll (hsaved : Assignable sha names saved)
    (hdeclared : Declared names profile fields)
    (hvalues : ∀ entry ∈ values, entry.1 ∈ fields ∧ Storable entry.2) :
    Assignable sha names (assignAll saved profile values) := by
  have hcases : ∀ name, Local.assignAll saved profile values name ≠ "" →
      (∃ field ∈ fields, name = nameOf profile field ∧
        Storable (Local.assignAll saved profile values name)) ∨
      saved name ≠ "" ∧ Local.assignAll saved profile values name = saved name := by
    intro name hne
    unfold Local.assignAll at hne ⊢
    split
    next hprofile =>
      cases hget : values.get name.field with
      | none =>
          rw [if_pos hprofile, hget] at hne
          exact .inr ⟨hne, rfl⟩
      | some value =>
          obtain ⟨hfield, hstorable⟩ : name.field ∈ fields ∧ Storable value := by
            obtain ⟨before, after, heq, -⟩ := List.lookup_eq_some_iff.1 hget
            exact hvalues (name.field, value) (heq ▸ List.mem_append_right _ List.mem_cons_self)
          exact .inl ⟨name.field, hfield, hprofile ▸ rfl, hstorable⟩
    next hprofile =>
      rw [if_neg hprofile] at hne
      exact .inr ⟨hne, rfl⟩
  constructor
  · exact hsaved.differ
  · intro name hne
    rcases hcases name hne with ⟨field, hfield, rfl, -⟩ | ⟨hne, -⟩
    · exact hdeclared.mem field hfield
    · exact hsaved.mem name hne
  · intro name hne
    rcases hcases name hne with ⟨field, hfield, rfl, -⟩ | ⟨hne, -⟩
    · exact hdeclared.valid hfield
    · exact hsaved.valid name hne
  · intro name hne
    rcases hcases name hne with ⟨field, -, -, hstorable⟩ | ⟨hne, heq⟩
    · exact hstorable
    · rw [heq]
      exact hsaved.storable name hne

/-- Every save returns, and the file then stores the values. -/
theorem Stores.save (h : Stores sha reader saved state) (hsaved : Assignable sha names saved)
    (hdeclared : Declared names profile fields) (hnodup : values.keys.Nodup)
    (hvalues : ∀ entry ∈ values, entry.1 ∈ fields ∧ Storable entry.2) :
    ∃ status state', Local.save sha reader profile values fields state = (.ok status, state') ∧
      Stores sha reader (assignAll saved profile values) state' := by
  obtain ⟨document, hread, hrepresents⟩ := h
  have hnames := hdeclared.fieldEnvironmentNames_eq_ok hsaved.differ
  have hkeys : Dict.keys (fields.map fun field => (field, (nameOf profile field).envName sha)) =
      fields := by
    rw [Dict.keys, List.map_map]
    exact List.map_id fields
  have hget : ∀ entry ∈ values, Dict.get
      (fields.map fun field => (field, (nameOf profile field).envName sha)) entry.1 =
        some ((nameOf profile entry.1).envName sha) := by
    intro entry hentry
    refine (Dict.get_eq_some_iff (hkeys.symm ▸ hdeclared.nodup)).2 ?_
    exact List.mem_map.2 ⟨entry.1, (hvalues entry hentry).1, rfl⟩
  obtain ⟨updated, hupdate, hupdated⟩ := hrepresents.update hsaved hnodup fun entry hentry =>
    ⟨hdeclared.mem _ (hvalues entry hentry).1, hget entry hentry⟩
  obtain ⟨text, hwrite, hstores⟩ :=
    writeDocument_eq_ok hupdated (hsaved.assignAll hdeclared hvalues) reader state
  obtain ⟨persisted, hpersisted, -⟩ := id hstores
  refine ⟨statusFromDocument profile
    (fields.map fun field => (field, (nameOf profile field).envName sha)) persisted,
    some text, ?_, hstores⟩
  unfold Local.save
  rw [check_bind_eq_ok]
  refine ⟨_, hnames, ?_⟩
  rw [check_bind_eq_ok]
  refine ⟨(), ?_, ?_⟩
  · rw [require_eq_ok, hkeys, List.all_eq_true]
    intro key hkey
    obtain ⟨entry, hentry, rfl⟩ := List.mem_map.1 hkey
    rw [List.contains_eq_mem, decide_eq_true_eq]
    exact (hvalues entry hentry).1
  rw [check_bind_eq_ok]
  refine ⟨(), ?_, ?_⟩
  · rw [forM_eq_ok]
    intro value hvalue
    obtain ⟨entry, hentry, rfl⟩ := List.mem_map.1 hvalue
    exact (hvalues entry hentry).2.plain
  rw [bind_of_ok hread, check_bind_eq_ok]
  refine ⟨_, hupdate, ?_⟩
  rw [bind_of_ok hwrite, bind_of_ok hpersisted]
  rfl

lemma Assignable.of_kept (hsaved : Assignable sha names saved) {kept : CredentialName → String}
    (hkept : ∀ name, kept name ≠ "" → kept name = saved name) : Assignable sha names kept where
  differ := hsaved.differ
  mem name hne := hsaved.mem name (hkept name hne ▸ hne)
  valid name hne := hsaved.valid name (hkept name hne ▸ hne)
  storable name hne := by
    rw [hkept name hne]
    exact hsaved.storable name (hkept name hne ▸ hne)

lemma clearMatching_kept (saved : CredentialName → String) (connectorId? environment? : Option String)
    (name : CredentialName) (hne : clearMatching saved connectorId? environment? name ≠ "") :
    clearMatching saved connectorId? environment? name = saved name := by
  unfold clearMatching at hne ⊢
  split at hne
  · exact absurd rfl hne
  next hmatch => rw [if_neg hmatch]

/-- Where nothing is saved for the profiles that match, nothing is cleared. -/
lemma clearMatching_eq_self
    (h : ∀ name, saved name ≠ "" → ¬ profileMatches connectorId? environment? name.profile = true) :
    clearMatching saved connectorId? environment? = saved := by
  funext name
  unfold clearMatching
  split
  next hmatch =>
    by_contra hne
    exact h name (fun hempty => hne hempty.symm) hmatch
  · rfl

/-- A profile with a value is made of identifiers. -/
lemma Assignable.validateOptional (hsaved : Assignable sha names saved) (hne : saved name ≠ "")
    (hmatch : profileMatches connectorId? environment? name.profile = true) :
    Local.validateOptional connectorId? = .ok () ∧ Local.validateOptional environment? = .ok () := by
  have hvalid := hsaved.valid name hne
  rw [profileMatches, Bool.and_eq_true] at hmatch
  constructor
  · cases connectorId? with
    | none => rfl
    | some connectorId =>
        have heq : name.connectorId = connectorId := beq_iff_eq.1 hmatch.1
        rw [← heq]
        exact hvalid.connectorId
  · cases environment? with
    | none => rfl
    | some environment =>
        have heq : name.environment = environment := beq_iff_eq.1 hmatch.2
        rw [← heq]
        exact hvalid.environment

/-- `clear` clears the values of the profiles that match. -/
theorem Stores.clear (h : Stores sha reader saved state) (hsaved : Assignable sha names saved)
    (connectorId? environment? : Option String)
    (hscope : (connectorId?.isSome || environment?.isSome) = true) :
    Stores sha reader (clearMatching saved connectorId? environment?)
      (Local.clear sha reader connectorId? environment? state).2 := by
  obtain ⟨document, hread, hrepresents⟩ := id h
  obtain ⟨cleared, hfold, hcleared⟩ :=
    hrepresents.foldlM_clearProfile hsaved connectorId? environment?
  -- nothing is left to clear where the call stops before it writes
  have hunchanged : (∀ name, saved name ≠ "" →
      ¬ profileMatches connectorId? environment? name.profile = true) →
      Stores sha reader (clearMatching saved connectorId? environment?) state := by
    intro hnone
    rw [clearMatching_eq_self hnone]
    exact h
  unfold Local.clear
  rw [check_bind_of_ok (a := ()) (by rw [hscope]; rfl)]
  cases hconnector : validateOptional connectorId? with
  | error e =>
      rw [check_bind_of_error (f := fun _ => .error e) rfl]
      refine hunchanged fun name hne hmatch => ?_
      rw [(hsaved.validateOptional hne hmatch).1] at hconnector
      cases hconnector
  | ok u =>
      rw [check_bind_of_ok (f := fun _ => .ok u) rfl]
      cases henvironment : validateOptional environment? with
      | error e =>
          rw [check_bind_of_error (f := fun _ => .error e) rfl]
          refine hunchanged fun name hne hmatch => ?_
          rw [(hsaved.validateOptional hne hmatch).2] at henvironment
          cases henvironment
      | ok u' =>
          have hcheck : (check fun _ =>
              document.profiles.foldlM (clearProfile sha connectorId? environment?) [] :
              StoreOperation (List String)) state = (.ok cleared, state) :=
            congrArg (·, state) hfold
          rw [check_bind_of_ok (f := fun _ => .ok u') rfl, bind_of_ok hread, bind_of_ok hcheck]
          cases hempty : cleared.isEmpty with
          | true =>
              refine hunchanged fun name hne hmatch => ?_
              have hmem := (hcleared _).2 ⟨name, hne, rfl, hmatch⟩
              rw [List.isEmpty_iff.1 hempty] at hmem
              cases hmem
          | false =>
              obtain ⟨text, hwrite, hstores⟩ := writeDocument_eq_ok
                (hrepresents.clear hsaved hcleared)
                (hsaved.of_kept (clearMatching_kept saved connectorId? environment?)) reader state
              rw [if_neg Bool.false_ne_true, bind_of_ok hwrite]
              exact hstores

/-- Without a scope, or with a scope for everything, `clear` raises and nothing changes. -/
lemma clear_of_unscoped (hscope : (connectorId?.isSome || environment?.isSome) = false) :
    (Local.clear sha reader connectorId? environment? state).2 = state := by
  unfold Local.clear
  rw [check_bind_of_error (e := "credential_clear_scope_required") (by rw [hscope]; rfl)]

lemma Stores.clearAll (h : Stores sha reader saved state) (connectorId? environment? : Option String) :
    Stores sha reader (if connectorId?.isNone && environment?.isNone then fun _ => "" else saved)
      (Local.clearAll sha reader connectorId? environment? state).2 := by
  obtain ⟨document, hread, -⟩ := id h
  unfold Local.clearAll
  cases hscope : connectorId?.isNone && environment?.isNone with
  | false =>
      rw [check_bind_of_error (f := fun _ => require false "credential_clear_scope_ambiguous") rfl]
      exact h
  | true =>
      rw [check_bind_of_ok (f := fun _ => require true "credential_clear_scope_ambiguous") rfl,
        bind_of_ok hread, modify_bind]
      exact stores_none sha reader

/-! ## Runs -/

lemma lastSaved_concat (calls : List Call) (call : Call) :
    lastSaved (calls ++ [call]) = call.assign (lastSaved calls) := by
  rw [lastSaved, List.foldl_append]
  rfl

/-- What a call leaves in the file. -/
theorem Stores.perform (h : Stores sha reader saved state) (hsaved : Assignable sha names saved)
    (hcall : call.WellFormed names) (hplain : call.EndsPlainly) :
    Stores sha reader (call.assign saved) (Local.perform sha reader call state).2 ∧
      Assignable sha names (call.assign saved) := by
  cases call with
  | save profile values fields =>
      obtain ⟨hdeclared, hnodup, hvalues⟩ := hcall
      have hstorable : ∀ entry ∈ values, entry.1 ∈ fields ∧ Storable entry.2 :=
        fun entry hentry => ⟨(hvalues entry hentry).1, (hvalues entry hentry).2, hplain entry hentry⟩
      obtain ⟨status, state', hsave, hstores⟩ := h.save hsaved hdeclared hnodup hstorable
      refine ⟨?_, hsaved.assignAll hdeclared hstorable⟩
      rw [Local.perform, snd_map, hsave]
      exact hstores
  | clear connectorId? environment? all =>
      cases all with
      | true =>
          rw [Local.perform, snd_map]
          refine ⟨h.clearAll connectorId? environment?, hsaved.of_kept fun name hne => ?_⟩
          unfold Call.assign at hne ⊢
          dsimp only at hne ⊢
          split
          next hscope =>
            rw [if_pos hscope] at hne
            exact absurd rfl hne
          · rfl
      | false =>
          rw [Local.perform, snd_map]
          unfold Call.assign
          dsimp only
          cases hscope : connectorId?.isSome || environment?.isSome with
          | false =>
              rw [if_neg Bool.false_ne_true, clear_of_unscoped hscope]
              exact ⟨h, hsaved⟩
          | true =>
              rw [if_pos rfl]
              exact ⟨h.clear hsaved connectorId? environment? hscope,
                hsaved.of_kept (clearMatching_kept saved connectorId? environment?)⟩

/-- The file stores what was last saved, before every call of a run. -/
lemma stores_lastSaved (reader : DotenvReader) (hdiffer : NamesDiffer sha names) {calls : List Call}
    (hcalls : ∀ call ∈ calls, call.WellFormed names ∧ call.EndsPlainly) :
    ∀ prior, prior <+: calls →
      Stores sha reader (lastSaved prior) (runAll (perform sha reader) none prior) ∧
        Assignable sha names (lastSaved prior) := by
  refine runAll_invariant (fun prior state => Stores sha reader (lastSaved prior) state ∧
    Assignable sha names (lastSaved prior)) ⟨stores_none sha reader, hdiffer, ?_, ?_, ?_⟩ ?_
  · exact fun name hne => absurd rfl hne
  · exact fun name hne => absurd rfl hne
  · exact fun name hne => absurd rfl hne
  · rintro prior call hinitial ⟨hstores, hsaved⟩
    have hcall := hcalls call (hinitial.subset (List.mem_append_right _ List.mem_cons_self))
    rw [runAll_concat, lastSaved_concat]
    exact hstores.perform hsaved hcall.1 hcall.2

/-- A call does not touch what is saved for other profiles. -/
lemma Call.assign_of_not_touches (h : ¬ call.Touches profile) (hname : name.profile = profile) :
    call.assign saved name = saved name := by
  cases call with
  | save other values fields =>
      exact if_neg fun heq => h (heq.symm.trans hname)
  | clear connectorId? environment? all =>
      have hmatch : ¬ profileMatches connectorId? environment? name.profile = true := hname ▸ h
      cases all with
      | true =>
          unfold assign
          dsimp only
          split
          next hscope =>
            rw [Bool.and_eq_true, Option.isNone_iff_eq_none, Option.isNone_iff_eq_none] at hscope
            rw [hscope.1, hscope.2] at hmatch
            exact absurd rfl hmatch
          · rfl
      | false =>
          unfold assign
          dsimp only
          split
          · exact if_neg hmatch
          · rfl

/-- As long as no value ends with a backslash: every save returns, a profile loads what was last
saved for it and not cleared since, and no call changes what another profile loads. -/
theorem credentials_roundTrip (reader : DotenvReader) (hdiffer : NamesDiffer sha names)
    {calls : List Call} (hcalls : ∀ call ∈ calls, call.WellFormed names)
    (hplain : ∀ call ∈ calls, call.EndsPlainly) :
    (∀ prior profile values fields result,
      Occurs (perform sha reader) none calls prior (.save profile values fields) result →
        ∃ status, result = .ok (.inl status)) ∧
    (∀ prior, prior <+: calls → ∀ profile fields, Declared names profile fields →
      (load sha reader profile fields (runAll (perform sha reader) none prior)).1 =
        .ok (loaded (lastSaved prior) profile fields)) ∧
    (∀ prior call, prior ++ [call] <+: calls → ∀ profile fields, Declared names profile fields →
      ¬ call.Touches profile →
        (load sha reader profile fields (runAll (perform sha reader) none (prior ++ [call]))).1 =
          (load sha reader profile fields (runAll (perform sha reader) none prior)).1) := by
  have hstores := stores_lastSaved reader hdiffer fun call hcall =>
    And.intro (hcalls call hcall) (hplain call hcall)
  have hload : ∀ prior, prior <+: calls → ∀ profile fields, Declared names profile fields →
      (load sha reader profile fields (runAll (perform sha reader) none prior)).1 =
        .ok (loaded (lastSaved prior) profile fields) := by
    intro prior hprior profile fields hdeclared
    obtain ⟨hfile, hsaved⟩ := hstores prior hprior
    rw [hfile.load_eq hsaved hdeclared]
  refine ⟨?_, hload, ?_⟩
  · rintro prior profile values fields result ⟨hinitial, rfl⟩
    have hmem := hinitial.subset (List.mem_append_right _ List.mem_cons_self)
    obtain ⟨hdeclared, hnodup, hvalues⟩ := hcalls _ hmem
    obtain ⟨hfile, hsaved⟩ := hstores prior ((List.prefix_append _ _).trans hinitial)
    obtain ⟨status, state', hsave, -⟩ := hfile.save hsaved hdeclared hnodup fun entry hentry =>
      ⟨(hvalues entry hentry).1, (hvalues entry hentry).2, hplain _ hmem entry hentry⟩
    have hperform : perform sha reader (.save profile values fields)
        (runAll (perform sha reader) none prior) = (.ok (.inl status), state') :=
      Operation.map_eq_ok.2 ⟨status, hsave, rfl⟩
    exact ⟨status, congrArg Prod.fst hperform⟩
  · intro prior call hinitial profile fields hdeclared htouches
    rw [hload _ hinitial profile fields hdeclared,
      hload prior ((List.prefix_append _ _).trans hinitial) profile fields hdeclared,
      lastSaved_concat]
    have hsame : ∀ field, call.assign (lastSaved prior) (nameOf profile field) =
        lastSaved prior (nameOf profile field) :=
      fun field => Call.assign_of_not_touches htouches rfl
    unfold loaded
    simp only [hsame]

end

/-! ## A reader, and runs on fixed inputs -/

/-- The rest of a line is skipped. -/
def skipLine (text : List Char) : List Char :=
  (text.dropWhile (· ≠ '\n')).drop 1

/-- The bindings of lines with double-quoted values.  Other lines are skipped. -/
def readBindings : Nat → List Char → Dict String (Option String)
  | 0, _ => []
  | n + 1, text =>
      let name := text.takeWhile isNameCharacter
      match text.drop name.length with
      | [] => []
      | '=' :: '"' :: quoted =>
          match doubleQuoted quoted with
          | some (body, '\n' :: rest) =>
              if isAssignmentName name then
                Dict.setAll [(String.ofList name, some (String.ofList (decodeEscapes body)))]
                  (readBindings n rest)
              else readBindings n rest
          | some (_, rest) => readBindings n (skipLine rest)
          | none => readBindings n (skipLine quoted)
      | rest => readBindings n (skipLine rest)

variable {text body rest : List Char}

lemma length_doubleQuoted (h : doubleQuoted text = some (body, rest)) :
    rest.length < text.length := by
  induction text using doubleQuoted.induct generalizing body rest with
  | case1 => cases h
  | case2 r =>
      cases h
      exact Nat.lt_succ_self _
  | case3 r body' rest' hr ih =>
      rw [doubleQuoted, hr] at h
      cases h
      have hlt := ih hr
      rw [List.length_cons, List.length_cons]
      omega
  | case4 r hr ih =>
      rw [doubleQuoted, hr] at h
      cases h
      rw [List.length_cons, List.length_cons]
      omega
  | case5 c r hmark hescape ih =>
      rw [doubleQuoted] at h
      · obtain ⟨⟨body', rest'⟩, hr, heq⟩ := Option.map_eq_some_iff.1 h
        cases heq
        have hlt := ih hr
        rw [List.length_cons]
        omega
      · exact hmark
      · exact hescape

lemma length_skipLine (text : List Char) : (skipLine text).length ≤ text.length - 1 := by
  unfold skipLine
  rw [List.length_drop]
  have hle := (List.dropWhile_sublist (l := text) (· ≠ '\n')).length_le
  omega

/-- Fuel beyond the length of the text does not matter. -/
lemma readBindings_fuel {n m : Nat} (hn : text.length ≤ n) (hm : text.length ≤ m) :
    readBindings n text = readBindings m text := by
  induction n generalizing m text with
  | zero =>
      have hnil : text = [] := List.eq_nil_of_length_eq_zero (by omega)
      subst hnil
      cases m with
      | zero => rfl
      | succ m => rfl
  | succ n ih =>
      cases m with
      | zero =>
          have hnil : text = [] := List.eq_nil_of_length_eq_zero (by omega)
          subst hnil
          rfl
      | succ m =>
          have hdrop : (text.drop (text.takeWhile isNameCharacter).length).length ≤ text.length := by
            rw [List.length_drop]
            omega
          unfold readBindings
          dsimp only
          generalize text.drop (text.takeWhile isNameCharacter).length = line at hdrop ⊢
          split
          · rfl
          next quoted =>
            rw [List.length_cons, List.length_cons] at hdrop
            split
            next body rest hquoted =>
              have hlt := length_doubleQuoted hquoted
              rw [List.length_cons] at hlt
              have hrest : readBindings n rest = readBindings m rest := ih (by omega) (by omega)
              rw [hrest]
            next body rest _ hquoted =>
              have hlt := length_doubleQuoted hquoted
              have hskip := length_skipLine rest
              exact ih (by omega) (by omega)
            · have hskip := length_skipLine quoted
              exact ih (by omega) (by omega)
          next hne _ =>
            have hpos := List.length_pos_of_ne_nil hne
            have hskip := length_skipLine line
            exact ih (by omega) (by omega)

/-- A line that assigns a text in quotation marks. -/
lemma readBindings_line {name : List Char} (hname : isAssignmentName name = true)
    (htext : doubleQuoted text = some (body, '\n' :: rest)) :
    readBindings (name ++ '=' :: '"' :: text).length (name ++ '=' :: '"' :: text) =
      Dict.setAll [(String.ofList name, some (String.ofList (decodeEscapes body)))]
        (readBindings rest.length rest) := by
  have hlt := length_doubleQuoted htext
  have hcharacters : ∀ c ∈ name, isNameCharacter c = true := by
    rw [isAssignmentName, Bool.and_eq_true] at hname
    exact List.all_eq_true.1 hname.2
  have htake : (name ++ '=' :: '"' :: text).takeWhile isNameCharacter = name := by
    rw [List.takeWhile_append_of_pos hcharacters, List.takeWhile_cons_of_neg (by decide),
      List.append_nil]
  have hlength : (name ++ '=' :: '"' :: text).length = (name.length + text.length + 1) + 1 := by
    simp only [List.length_append, List.length_cons]
    omega
  rw [List.length_cons] at hlt
  rw [hlength, readBindings]
  simp only [htake, List.drop_left, htext, if_pos hname]
  rw [readBindings_fuel (m := rest.length) (by omega) (Nat.le_refl _)]

/-- A reader of such files. -/
def lineReader : DotenvReader where
  values text := readBindings text.length text
  values_nil := rfl
  values_line _ _ _ _ := readBindings_line

/-- The digests of four tuples. -/
def fourDigests (data : List UInt8) : String :=
  if data = tupleBytes ["xero", "demo"] then
    "e4b120f8232c06563ee6e76ea95faa8a05f8ab7c3ad138c2b44423a04e094c85"
  else if data = tupleBytes ["xero", "demo", "client_secret"] then
    "358e87c2734e61b84e233f5facc40829800d3a6aa811bba8e314bc8ffaf9d15d"
  else if data = tupleBytes ["PEAK", "uat"] then
    "c80fb841b565b48a4b8f89d7f35d10f3e021bc7babefee90ddec128d964eda07"
  else "d68d42e1eb7acd37ff18bf2edc2da01eb6e69a58e7fa6a1d0a433b3c9033ae75"

def tupleDigest : Sha256 where
  hexdigest := fourDigests
  valid data := by
    unfold fourDigests
    split
    · exact Hosted.isSha256_ofList rfl
    split
    · exact Hosted.isSha256_ofList rfl
    split
    · exact Hosted.isSha256_ofList rfl
    · exact Hosted.isSha256_ofList rfl

/-- Two names. -/
def xeroSecret : CredentialName :=
  ⟨"xero", "demo", "client_secret"⟩

def peakToken : CredentialName :=
  ⟨"PEAK", "uat", "user_token"⟩

lemma digestOf_eq {parts : List String} {digest : List Char}
    (h : fourDigests (tupleBytes parts) = String.ofList digest) :
    digestOf tupleDigest parts = digest.map upper := by
  have hown : tupleDigest.hexdigest (tupleBytes parts) = String.ofList digest := h
  rw [digestOf, hown, String.toList_ofList]

lemma take_digestOf_xeroSecret :
    (digestOf tupleDigest xeroSecret.parts).take 12 = "358E87C2734E".toList := by
  have hne : tupleBytes xeroSecret.parts ≠ tupleBytes ["xero", "demo"] := by decide +kernel
  have heq : tupleBytes xeroSecret.parts = tupleBytes ["xero", "demo", "client_secret"] := rfl
  have hdigest : fourDigests (tupleBytes xeroSecret.parts) =
      "358e87c2734e61b84e233f5facc40829800d3a6aa811bba8e314bc8ffaf9d15d" := by
    rw [fourDigests, if_neg hne, if_pos heq]
  rw [digestOf_eq hdigest]
  decide

lemma take_digestOf_peakToken :
    (digestOf tupleDigest peakToken.parts).take 12 = "D68D42E1EB7A".toList := by
  have h1 : tupleBytes peakToken.parts ≠ tupleBytes ["xero", "demo"] := by decide +kernel
  have h2 : tupleBytes peakToken.parts ≠ tupleBytes ["xero", "demo", "client_secret"] := by
    decide +kernel
  have h3 : tupleBytes peakToken.parts ≠ tupleBytes ["PEAK", "uat"] := by decide +kernel
  have hdigest : fourDigests (tupleBytes peakToken.parts) =
      "d68d42e1eb7acd37ff18bf2edc2da01eb6e69a58e7fa6a1d0a433b3c9033ae75" := by
    rw [fourDigests, if_neg h1, if_neg h2, if_neg h3]
  rw [digestOf_eq hdigest]
  decide

lemma profileMetadataName_ne : profileMetadataName tupleDigest xeroSecret.profile ≠
    profileMetadataName tupleDigest peakToken.profile := by
  have h1 : tupleBytes ["PEAK", "uat"] ≠ tupleBytes ["xero", "demo"] := by decide +kernel
  have h2 : tupleBytes ["PEAK", "uat"] ≠ tupleBytes ["xero", "demo", "client_secret"] := by
    decide +kernel
  have hxero : fourDigests (tupleBytes ["xero", "demo"]) =
      "e4b120f8232c06563ee6e76ea95faa8a05f8ab7c3ad138c2b44423a04e094c85" := by
    rw [fourDigests, if_pos rfl]
  have hpeak : fourDigests (tupleBytes ["PEAK", "uat"]) =
      "c80fb841b565b48a4b8f89d7f35d10f3e021bc7babefee90ddec128d964eda07" := by
    rw [fourDigests, if_neg h1, if_neg h2, if_pos rfl]
  intro heq
  have hsame := String.ofList_injective heq
  rw [List.append_cancel_left_eq] at hsame
  change digestOf tupleDigest ["xero", "demo"] = digestOf tupleDigest ["PEAK", "uat"] at hsame
  rw [digestOf_eq hxero, digestOf_eq hpeak, List.map_cons, List.map_cons] at hsame
  exact absurd (List.head_eq_of_cons_eq hsame) (by decide)

lemma namesDiffer_tupleDigest : NamesDiffer tupleDigest {xeroSecret, peakToken} := by
  constructor
  · have hne : "358E87C2734E".toList ≠ "D68D42E1EB7A".toList := by decide
    rintro name (rfl | rfl) other (rfl | rfl) heq
    · rfl
    · rw [take_digestOf_xeroSecret, take_digestOf_peakToken] at heq
      exact absurd heq hne
    · rw [take_digestOf_xeroSecret, take_digestOf_peakToken] at heq
      exact absurd heq hne.symm
    · rfl
  · rintro name (rfl | rfl) other (rfl | rfl) heq
    · rfl
    · exact absurd heq profileMetadataName_ne
    · exact absurd heq profileMetadataName_ne.symm
    · rfl

lemma declared_xeroSecret :
    Declared {xeroSecret, peakToken} xeroSecret.profile ["client_secret"] where
  connectorId := by decide
  environment := by decide
  nodup := List.nodup_singleton _
  field := by decide
  mem := by
    intro field hfield
    rw [List.mem_singleton.1 hfield]
    exact .inl rfl

lemma declared_peakToken : Declared {xeroSecret, peakToken} peakToken.profile ["user_token"] where
  connectorId := by decide
  environment := by decide
  nodup := List.nodup_singleton _
  field := by decide
  mem := by
    intro field hfield
    rw [List.mem_singleton.1 hfield]
    exact .inr rfl

/-- A value that ends with a backslash is not saved. -/
theorem save_trailingBackslash :
    (Call.save xeroSecret.profile [("client_secret", "C:\\")] ["client_secret"]).WellFormed
        {xeroSecret, peakToken} ∧
      (perform tupleDigest lineReader
        (.save xeroSecret.profile [("client_secret", "C:\\")] ["client_secret"]) none).1 =
          .error invalidFile := by
  refine ⟨⟨declared_xeroSecret, List.nodup_singleton _, ?_⟩, ?_⟩
  · decide
  · decide +kernel

/-- Two profiles, of which the first is cleared. -/
def twoProfiles : List Call :=
  [.save xeroSecret.profile [("client_secret", "a\\\"#b='c' $d")] ["client_secret"],
    .save peakToken.profile [("user_token", "\\n\"é")] ["user_token"],
    .clear (some "xero") none false]

theorem credentials_roundTrip_twoProfiles :
    (load tupleDigest lineReader peakToken.profile ["user_token"]
        (runAll (perform tupleDigest lineReader) none twoProfiles)).1 =
      .ok [("user_token", "\\n\"é")] ∧
    (load tupleDigest lineReader xeroSecret.profile ["client_secret"]
        (runAll (perform tupleDigest lineReader) none twoProfiles)).1 = .ok [] := by
  have hcalls : ∀ call ∈ twoProfiles, call.WellFormed {xeroSecret, peakToken} := by
    simp only [twoProfiles, List.forall_mem_cons]
    refine ⟨⟨declared_xeroSecret, List.nodup_singleton _, by decide⟩,
      ⟨declared_peakToken, List.nodup_singleton _, by decide⟩, trivial, nofun⟩
  have hplain : ∀ call ∈ twoProfiles, call.EndsPlainly := by
    simp only [twoProfiles, List.forall_mem_cons]
    exact ⟨by unfold Call.EndsPlainly; decide, by unfold Call.EndsPlainly; decide, trivial, nofun⟩
  obtain ⟨-, hload, -⟩ :=
    credentials_roundTrip lineReader namesDiffer_tupleDigest hcalls hplain
  constructor
  · rw [hload twoProfiles (List.prefix_refl _) _ _ declared_peakToken]
    decide
  · rw [hload twoProfiles (List.prefix_refl _) _ _ declared_xeroSecret]
    decide

end MercuryTools.Local
