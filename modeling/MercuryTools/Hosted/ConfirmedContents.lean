import MercuryTools.Framework.KeyedTable
import MercuryTools.Framework.Sealing
import MercuryTools.Hosted.PreviewRoundTrip
import MercuryTools.Hosted.PreviewPreparation

/-!
# What is confirmed is what was prepared

A preview that `_load_confirmable` accepts, from whatever record it was loaded, against the
previews that were prepared.  Each of its items is an item of the preview that was prepared
under its identifier, with the arguments that were sealed then and with their projection:
the identity an item is sealed under has the hash of everything the item shows.

That identity says nothing about the other items, and the hash of the preview is not part of it.
A record from which items were left out, or whose own warnings or company name were replaced,
is accepted.  What is confirmed is what was prepared exactly where neither was done.
-/

namespace MercuryTools
namespace Hosted
namespace Documents

open Checks Decimals Sealing

/-! ## The payload vault -/

/-- `CredentialBinding`. -/
structure CredentialBinding where
  tenantId : UUID
  workspaceId : UUID
  authUserId : UUID
  connectionId : UUID
  provider : String
  companyOrMerchantId : String
  environment : String
  credentialType : String
  deriving DecidableEq, Repr

/-- `HostedPayloadVault`, with the encoding of arguments: `vault_company_binding`, the `open` of
the credential vault, `authoritative_payload_bytes` and `json.loads`. -/
structure HostedPayloadVault (Arguments Plaintext : Type) where
  vaultCompanyBinding : PreviewPayloadBinding → String
  openEnvelope : CredentialBinding → CredentialEnvelope → Option Plaintext
  payloadBytes : Arguments → Plaintext
  loads : Plaintext → Option Arguments

section

variable {Evidence Arguments Plaintext : Type} (env : ConfirmationEnvironment Evidence Arguments)
  (vault : HostedPayloadVault Arguments Plaintext)

namespace HostedPayloadVault

/-- `_credential_binding`. -/
def credentialBinding (binding : PreviewPayloadBinding) : CredentialBinding where
  tenantId := binding.tenantId
  workspaceId := binding.workspaceId
  authUserId := binding.authUserId
  connectionId := binding.connectionId
  provider := ProviderId.value binding.provider
  companyOrMerchantId := vault.vaultCompanyBinding binding
  environment := binding.environment
  credentialType := hostedPreviewPayloadCredentialType

/-- `HostedPayloadVault.open`, and the arguments in the plaintext. -/
def openPayload (binding : PreviewPayloadBinding) (envelope : CredentialEnvelope) :
    Option Arguments :=
  (vault.openEnvelope (vault.credentialBinding binding) envelope).bind vault.loads

end HostedPayloadVault

/-! ## Prepared previews -/

/-- A preview that `prepare_document_create` put together, with what it was made of. -/
structure Preparation where
  evidence : Evidence
  acceptsArguments : Evidence → Arguments → Bool
  authority : PreparationAuthority
  input : PreparationInput Arguments
  drafts : List (DocumentCreateDraft Arguments)
  documents : List (PreparedDocument Arguments)
  identity : PreviewIdentity
  preview : DocumentPreview
  documents_eq : prepareDocuments env acceptsArguments evidence authority drafts = .ok documents
  identity_eq : previewIdentity env authority documents = .ok identity
  built : buildPreview env authority input documents identity = .ok preview

variable {env vault}

/-- The dictionary that the integrity hash of a document is taken of. -/
def PreparedDocument.payload (authority : PreparationAuthority)
    (document : PreparedDocument Arguments) : HashPayload :=
  .item document.draft.clientItemId document.providerCallHash authority.projectorId
    authority.projectorVersion document.projection.documentType
    document.projection.counterpartyDisplay document.projection.issueDate
    document.projection.dueDate document.projection.financials.modelDump document.draft.warnings
    document.draft.accountantReviewPoints

namespace Preparation

/-- The documents with the identifiers of their items. -/
def entries (prepared : Preparation env) : List (UUID × PreparedDocument Arguments) :=
  prepared.input.previewItemIds.zip prepared.documents

/-- The identity an entry is sealed under. -/
def binding (prepared : Preparation env) (entry : UUID × PreparedDocument Arguments) :
    PreviewPayloadBinding :=
  itemBinding prepared.authority prepared.input entry.1 entry.2

/-- What is confirmed of an entry. -/
def opened (prepared : Preparation env) : List (UUID × String × Arguments) :=
  prepared.entries.map fun entry =>
    (entry.1, entry.2.draft.clientItemId, entry.2.draft.providerArguments)

end Preparation

/-- A payload that was sealed for a prepared preview. -/
def SealedArguments (history : List (Preparation env)) (binding : PreviewPayloadBinding)
    (arguments : Arguments) : Prop :=
  ∃ prepared ∈ history, ∃ entry ∈ prepared.entries,
    prepared.binding entry = binding ∧ entry.2.draft.providerArguments = arguments

/-- The previews that were prepared, the vault their payloads were sealed with, and the
assumptions on the sealing, the encoding and the hashes. -/
structure SealedHistory (env : ConfirmationEnvironment Evidence Arguments)
    (vault : HostedPayloadVault Arguments Plaintext) (history : List (Preparation env)) : Prop where
  opens : env.openPayload = vault.openPayload
  fresh : (history.map (·.input.previewId)).Nodup
  loads : ∀ arguments, vault.loads (vault.payloadBytes arguments) = some arguments
  authentic : Authentic vault.openEnvelope fun credential plaintext =>
    ∃ binding, (∃ arguments, SealedArguments history binding arguments ∧
      vault.payloadBytes arguments = plaintext) ∧ vault.credentialBinding binding = credential
  binding_hash : NoCollision vault.vaultCompanyBinding fun binding =>
    ∃ arguments, SealedArguments history binding arguments
  payload_hash : NoCollision env.canonicalPayloadHash fun payload =>
    ∃ prepared ∈ history, ∃ entry ∈ prepared.entries,
      entry.2.payload prepared.authority = payload

/-- What a payload opens to was sealed under the identity it is opened with. -/
lemma SealedHistory.authentic_openPayload {history : List (Preparation env)}
    (h : SealedHistory env vault history) :
    Authentic env.openPayload (SealedArguments history) := by
  have hbinding : NoCollision vault.credentialBinding fun binding =>
      ∃ plaintext, ∃ arguments, SealedArguments history binding arguments ∧
        vault.payloadBytes arguments = plaintext := by
    refine NoCollision.of_comp (·.companyOrMerchantId) (fun _ => rfl) ?_
    rintro b c ⟨_, arguments, hc, -⟩ heq
    exact h.binding_hash b c ⟨arguments, hc⟩ heq
  rw [h.opens]
  exact (h.authentic.of_digest hbinding).decode h.loads

/-! ### The items of a prepared preview -/

variable {authority : PreparationAuthority}

lemma forall₂_buildItems {input : PreparationInput Arguments} {ids : List UUID}
    {documents : List (PreparedDocument Arguments)} (h : ids.length = documents.length)
    (index : Nat) :
    List.Forall₂ (fun item entry => ∃ i, item = buildItem authority input entry.1 i entry.2)
      (buildItems authority input index ids documents) (ids.zip documents) := by
  induction ids generalizing documents index with
  | nil =>
      cases documents with
      | nil => exact .nil
      | cons => simp at h
  | cons id ids ih =>
      cases documents with
      | nil => simp at h
      | cons document documents =>
          exact .cons ⟨index, rfl⟩ (ih (by simpa using h) _)

/-- What is shown of a document. -/
def PreparedDocument.publicRecord (document : PreparedDocument Arguments) : ItemSummary where
  clientItemId := document.draft.clientItemId
  providerCallHash := document.providerCallHash
  previewIntegrityHash := document.integrityHash
  documentType := document.projection.documentType
  counterpartyDisplay := document.projection.counterpartyDisplay
  issueDate := document.projection.issueDate
  dueDate := document.projection.dueDate
  financials := document.projection.financials.modelDump
  warnings := document.draft.warnings
  accountantReviewPoints := document.draft.accountantReviewPoints

/-- The dictionary that the integrity hash of an item is taken of. -/
def DocumentPreview.itemPayload (preview : DocumentPreview) (item : StoredPreviewItem) :
    HashPayload :=
  .item item.clientItemId item.providerCallHash preview.projectorId preview.projectorVersion
    item.documentType item.counterpartyDisplay item.issueDate item.dueDate
    item.financials.modelDump item.warnings item.accountantReviewPoints

/-- An item with the payload and the hash of a document shows what the document does. -/
lemma publicRecord_eq {preview : DocumentPreview} {item : StoredPreviewItem}
    {document : PreparedDocument Arguments}
    (hpayload : preview.itemPayload item = document.payload authority)
    (hhash : item.previewIntegrityHash = document.integrityHash) :
    item.publicRecord = document.publicRecord := by
  simp only [DocumentPreview.itemPayload, PreparedDocument.payload, HashPayload.item.injEq]
    at hpayload
  obtain ⟨h1, h2, -, -, h3, h4, h5, h6, h7, h8, h9⟩ := hpayload
  simp only [StoredPreviewItem.publicRecord, PreparedDocument.publicRecord, h1, h2, h3, h4, h5, h6,
    h7, h8, h9, hhash]

namespace Preparation

variable {prepared : Preparation env}

lemma length_ids (prepared : Preparation env) :
    prepared.input.previewItemIds.length = prepared.documents.length := by
  have h := prepared.built
  simp only [buildPreview, bind_eq_ok, require_eq_ok, beq_iff_eq] at h
  obtain ⟨-, h, -⟩ := h
  exact h

lemma map_fst_entries (prepared : Preparation env) :
    prepared.entries.map (·.1) = prepared.input.previewItemIds :=
  List.map_fst_zip (le_of_eq prepared.length_ids)

lemma map_snd_entries (prepared : Preparation env) :
    prepared.entries.map (·.2) = prepared.documents :=
  List.map_snd_zip (ge_of_eq prepared.length_ids)

/-- The hash of a document, and its projection. -/
lemma document_eq {document : PreparedDocument Arguments} (h : document ∈ prepared.documents) :
    document.integrityHash = env.canonicalPayloadHash (document.payload prepared.authority) ∧
      env.project prepared.evidence document.draft.providerArguments = .ok document.projection := by
  have hdocuments := prepared.documents_eq
  simp only [prepareDocuments, bind_eq_ok, mapM_eq_ok, require_eq_ok, pure_eq_ok] at hdocuments
  obtain ⟨-, -, -, -, documents, hall, -, -, -, -, rfl⟩ := hdocuments
  obtain ⟨draft, -, hdraft⟩ := KeyedTable.exists_of_forall₂ hall h
  cases hproject : env.project prepared.evidence draft.providerArguments with
  | error code => simp [hproject] at hdraft
  | ok projection =>
      simp only [hproject, Except.ok.injEq] at hdraft
      rw [← hdraft]
      exact ⟨rfl, hproject⟩

/-- The preview as it was put together, and its validation. -/
lemma valid (prepared : Preparation env) :
    (assemblePreview prepared.authority prepared.input prepared.documents
      prepared.identity).validate env.toDocumentEnvironment = .ok prepared.preview := by
  have h := prepared.built
  simp only [buildPreview, bind_eq_ok] at h
  obtain ⟨-, -, h⟩ := h
  exact h

/-- The items of the preview, entry by entry. -/
lemma items_eq (prepared : Preparation env) :
    List.Forall₂ (fun item entry => ∃ i display, item =
        { buildItem prepared.authority prepared.input entry.1 i entry.2 with
          counterpartyDisplay := display })
      prepared.preview.items prepared.entries := by
  obtain ⟨-, displayName, items, -, hitems, hpreview, -⟩ :=
    DocumentPreview.validate_eq_ok.1 prepared.valid
  have hsame : prepared.preview.items = items := congrArg (·.items) hpreview
  have hbuilt : List.Forall₂ (fun item entry => ∃ i, item =
      buildItem prepared.authority prepared.input entry.1 i entry.2) _ prepared.entries :=
    forall₂_buildItems prepared.length_ids 0
  rw [hsame]
  refine KeyedTable.forall₂_comp ?_ hitems.flip hbuilt
  rintro item built entry hitem ⟨i, rfl⟩
  obtain ⟨-, display, -, rfl⟩ := StoredPreviewItem.validate_eq_ok.1 hitem
  exact ⟨i, display, rfl⟩

end Preparation

/-! ### Items and totals that are shown -/

section

variable {history : List (Preparation env)}

variable {preview checked : DocumentPreview} {item : StoredPreviewItem} {prepared : Preparation env}
  {scope : Scope} {version : Int} {evidence : Evidence} {now : DateTime}
  {opened : List (UUID × String × Arguments)} {o : UUID × String × Arguments}

/-- An item of a valid preview that has the hash of a prepared document shows that document. -/
lemma SealedHistory.publicRecord_eq (h : SealedHistory env vault history)
    (hcontents : preview.validateContents env.toDocumentEnvironment =
      .ok ()) (hitem : item ∈ preview.items) (hprepared : prepared ∈ history)
    {entry : UUID × PreparedDocument Arguments} (hentry : entry ∈ prepared.entries)
    (hhash : item.previewIntegrityHash = entry.2.integrityHash) :
    item.publicRecord = entry.2.publicRecord := by
  have hown := ((DocumentPreview.validateContents_eq_ok.1 hcontents).2.2.1 item hitem).2
  have hdocument : entry.2 ∈ prepared.documents :=
    prepared.map_snd_entries ▸ List.mem_map_of_mem hentry
  have heq : env.canonicalPayloadHash (preview.itemPayload item) =
      env.canonicalPayloadHash (entry.2.payload prepared.authority) := by
    rw [← (Preparation.document_eq hdocument).1, ← hhash, hown]
    rfl
  exact Documents.publicRecord_eq
    (h.payload_hash _ _ ⟨prepared, hprepared, entry, hentry, rfl⟩ heq) hhash

/-- The items of a validated preview have valid amounts. -/
lemma financials_of_validate (h : preview.validate env.toDocumentEnvironment = .ok checked) :
    ∀ item ∈ checked.items, item.financials.validate = .ok () := by
  obtain ⟨-, displayName, items, -, hitems, rfl, -⟩ := DocumentPreview.validate_eq_ok.1 h
  intro item hitem
  obtain ⟨original, -, horiginal⟩ := KeyedTable.exists_of_forall₂ hitems hitem
  obtain ⟨hchecked, display, -, rfl⟩ := StoredPreviewItem.validate_eq_ok.1 horiginal
  exact hchecked.financials

/-- Amounts with the same texts have the same values. -/
lemma Totals.map_value_eq {totals totals' : Totals Decimal} (h : ∀ d ∈ totals.amounts, Admitted d)
    (h' : ∀ d ∈ totals'.amounts, Admitted d)
    (heq : totals.map Decimal.text = totals'.map Decimal.text) :
    totals.map Decimal.value = totals'.map Decimal.value := by
  have hplain : totals.map Decimal.plain = totals'.map Decimal.plain := by
    have hparse := Totals.parse_text h
    rw [heq, Totals.parse_text h'] at hparse
    exact (Except.ok.inj hparse).symm
  have hvalue := congrArg (·.map Decimal.value) hplain
  simpa only [Totals.map_map, value_comp_plain] using hvalue

/-- Items that show the same have the same totals. -/
lemma map_totals_eq {items items' : List StoredPreviewItem}
    (hitems : ∀ item ∈ items, item.financials.validate = .ok ())
    (hitems' : ∀ item ∈ items', item.financials.validate = .ok ())
    (heq : items.map (·.publicRecord) = items'.map (·.publicRecord)) :
    (items.map fun item => item.financials.toTotals.map Decimal.value) =
      items'.map fun item => item.financials.toTotals.map Decimal.value := by
  induction items generalizing items' with
  | nil =>
      cases items' with
      | nil => rfl
      | cons => simp at heq
  | cons item items ih =>
      cases items' with
      | nil => simp at heq
      | cons item' items' =>
          simp only [List.map_cons, List.cons.injEq] at heq ⊢
          obtain ⟨-, -, -, hamounts, -⟩ :=
            DocumentFinancials.validate_eq_ok.1 (hitems item List.mem_cons_self)
          obtain ⟨-, -, -, hamounts', -⟩ :=
            DocumentFinancials.validate_eq_ok.1 (hitems' item' List.mem_cons_self)
          have hdump : item.financials.modelDump = item'.financials.modelDump :=
            congrArg (·.financials) heq.1
          exact ⟨Totals.map_value_eq hamounts hamounts' (congrArg (·.toTotals) hdump),
            ih (fun i hi => hitems i (List.mem_cons_of_mem _ hi))
              (fun i hi => hitems' i (List.mem_cons_of_mem _ hi)) heq.2⟩

/-- Valid previews whose items show the same have the same totals and the same currency. -/
lemma totals_eq {preview' checked' : DocumentPreview}
    (h : preview.validate env.toDocumentEnvironment = .ok checked)
    (h' : preview'.validate env.toDocumentEnvironment = .ok checked')
    (heq : checked.items.map (·.publicRecord) = checked'.items.map (·.publicRecord)) :
    checked.toTotals.map Decimal.value = checked'.toTotals.map Decimal.value ∧
      checked.currency = checked'.currency := by
  have hitems := map_totals_eq (financials_of_validate h) (financials_of_validate h') heq
  have htotal : ∀ f : Totals ℚ → ℚ,
      (checked.items.map fun item => f (item.financials.toTotals.map Decimal.value)) =
        checked'.items.map fun item => f (item.financials.toTotals.map Decimal.value) := by
    intro f
    simpa only [List.map_map, Function.comp_def] using congrArg (List.map f) hitems
  obtain ⟨-, -, -, -, -, -, hwell, hcontents⟩ := DocumentPreview.validate_eq_ok.1 h
  obtain ⟨-, -, -, -, -, -, -, hcontents'⟩ := DocumentPreview.validate_eq_ok.1 h'
  obtain ⟨-, -, -, hcurrency, htotals, -⟩ := DocumentPreview.validateContents_eq_ok.1 hcontents
  obtain ⟨-, -, -, hcurrency', htotals', -⟩ := DocumentPreview.validateContents_eq_ok.1 hcontents'
  refine ⟨?_, ?_⟩
  · rw [htotals, htotals']
    simp only [htotal]
  · have hlength := hwell.items_length.1
    cases hlist : checked.items with
    | nil => simp [DocumentPreview.summary, hlist] at hlength
    | cons item items =>
        cases hlist' : checked'.items with
        | nil => simp [hlist, hlist'] at heq
        | cons item' items' =>
            simp only [hlist, hlist', List.map_cons, List.cons.injEq] at heq
            have hdump : item.financials.modelDump = item'.financials.modelDump :=
              congrArg (·.financials) heq.1
            have hsame : item.financials.currency = item'.financials.currency :=
              congrArg (·.currency) hdump
            rw [← hcurrency item (hlist ▸ List.mem_cons_self), hsame,
              hcurrency' item' (hlist' ▸ List.mem_cons_self)]

/-! ## Accepted previews -/

/-- The projection of the arguments is what is shown of the document. -/
def ProjectsTo (env : ConfirmationEnvironment Evidence Arguments) (evidence : Evidence)
    (arguments : Arguments) (shown : ItemSummary) : Prop :=
  ∃ projection, env.project evidence arguments = .ok projection ∧
    shown.documentType = projection.documentType ∧
    shown.counterpartyDisplay = projection.counterpartyDisplay ∧
    shown.issueDate = projection.issueDate ∧ shown.dueDate = projection.dueDate ∧
    shown.financials = projection.financials.modelDump

/-- What `_load_confirmable` has done with the items and with the preview. -/
lemma loadConfirmable_eq_ok
    (h : preview.loadConfirmable env scope version evidence now = .ok (checked, opened)) :
    List.Forall₂ (fun item o => preview.openItem env evidence item = .ok o) preview.items opened ∧
      preview.validate env.toDocumentEnvironment = .ok checked := by
  simp only [DocumentPreview.loadConfirmable, bind_eq_ok, require_eq_ok, pure_eq_ok,
    mapM_eq_ok] at h
  obtain ⟨-, -, instant, -, -, -, -, -, -, -, -, -, items, hitems, preview', hvalid, heq⟩ := h
  obtain ⟨rfl, rfl⟩ := Prod.mk.inj heq
  exact ⟨hitems, hvalid⟩

/-- An item that was opened has the identity of a prepared one: its arguments are those that
were sealed, and they project to what the prepared document shows. -/
lemma SealedHistory.opened_item (h : SealedHistory env vault history)
    (hopen : preview.openItem env evidence item = .ok o) :
    ∃ prepared ∈ history, ∃ entry ∈ prepared.entries,
      prepared.binding entry = preview.payloadBinding item ∧
        o = (entry.1, entry.2.draft.clientItemId, entry.2.draft.providerArguments) ∧
        ProjectsTo env evidence entry.2.draft.providerArguments entry.2.publicRecord := by
  unfold DocumentPreview.openItem at hopen
  cases hpayload : env.openPayload (preview.payloadBinding item) item.payloadEnvelope with
  | none => simp [hpayload] at hopen
  | some arguments =>
      cases hproject : env.project evidence arguments with
      | error code => simp [hpayload, hproject] at hopen
      | ok projection =>
          simp only [hpayload, hproject, bind_eq_ok, require_eq_ok, pure_eq_ok, Bool.and_eq_true,
            beq_iff_eq] at hopen
          obtain ⟨-, ⟨⟨⟨⟨⟨⟨-, hintegrity⟩, -⟩, -⟩, -⟩, -⟩, -⟩, rfl⟩ := hopen
          obtain ⟨prepared, hprepared, entry, hentry, hbinding, rfl⟩ :=
            h.authentic_openPayload _ _ _ hpayload
          have hdocument : entry.2 ∈ prepared.documents :=
            prepared.map_snd_entries ▸ List.mem_map_of_mem hentry
          have hid : entry.1 = item.previewItemId := congrArg (·.previewItemId) hbinding
          have hclient : entry.2.draft.clientItemId = item.clientItemId :=
            congrArg (·.clientItemId) hbinding
          have hhash : entry.2.integrityHash = item.previewIntegrityHash :=
            congrArg (·.previewIntegrityHash) hbinding
          -- the projection has the hash that the item was sealed with
          have hsame := h.payload_hash _ _ ⟨prepared, hprepared, entry, hentry, rfl⟩
            (hintegrity.trans (hhash.symm.trans (Preparation.document_eq hdocument).1))
          simp only [PreparedDocument.payload, HashPayload.item.injEq] at hsame
          obtain ⟨-, -, -, -, htype, hparty, hissue, hdue, hfinancials, -⟩ := hsame
          exact ⟨prepared, hprepared, entry, hentry, hbinding, by rw [hid, hclient],
            projection, hproject, htype.symm, hparty.symm, hissue.symm, hdue.symm,
            hfinancials.symm⟩

/-- What is confirmed and shown is what was prepared: the opened arguments are exactly those
that were sealed, the items show the documents, which are the projections of the arguments, and
the totals, the company and the review codes are those of the prepared preview. -/
structure ShownAsPrepared (evidence : Evidence) (prepared : Preparation env)
    (checked : DocumentPreview) (opened : List (UUID × String × Arguments)) : Prop where
  preview_id : checked.previewId = prepared.input.previewId
  opened : opened = prepared.opened
  items : checked.items.map (·.publicRecord) = prepared.documents.map (·.publicRecord)
  projected : ∀ document ∈ prepared.documents,
    ProjectsTo env evidence document.draft.providerArguments document.publicRecord
  totals : checked.toTotals.map Decimal.value = prepared.preview.toTotals.map Decimal.value
  currency : checked.currency = prepared.preview.currency
  company : checked.accountDisplayName = prepared.preview.accountDisplayName
  warnings : checked.warnings = prepared.preview.warnings
  review_points : checked.accountantReviewPoints = prepared.preview.accountantReviewPoints

/-- The record lists the items that were prepared, in their order, and has the company name and
the review codes of the prepared preview. -/
structure KeptWhole (prepared : Preparation env) (preview : DocumentPreview) : Prop where
  preview_id : preview.previewId = prepared.input.previewId
  item_ids : preview.items.map (·.previewItemId) = prepared.input.previewItemIds
  company : env.sanitize preview.accountDisplayName = some prepared.preview.accountDisplayName
  warnings : preview.warnings = prepared.preview.warnings
  review_points : preview.accountantReviewPoints = prepared.preview.accountantReviewPoints

/-- The items of a prepared preview show its documents. -/
lemma SealedHistory.publicRecords_preview (h : SealedHistory env vault history)
    (hprepared : prepared ∈ history) :
    prepared.preview.items.map (·.publicRecord) = prepared.documents.map (·.publicRecord) := by
  obtain ⟨-, -, -, -, -, -, -, hcontents⟩ := DocumentPreview.validate_eq_ok.1 prepared.valid
  have hrows := prepared.items_eq
  rw [← prepared.map_snd_entries, List.map_map, ← List.forall₂_eq_eq_eq,
    List.forall₂_map_left_iff, List.forall₂_map_right_iff]
  rw [List.forall₂_iff_get] at hrows ⊢
  refine ⟨hrows.1, fun i hi hj => ?_⟩
  obtain ⟨index, display, hitem⟩ := hrows.2 i hi hj
  refine h.publicRecord_eq hcontents (List.get_mem _ _) hprepared (List.get_mem _ _) ?_
  rw [hitem]
  rfl

lemma sanitizePublicText_eq_ok {sanitize : String → Option String} {value code projected : String} :
    sanitizePublicText sanitize value code = .ok projected ↔ sanitize value = some projected := by
  unfold sanitizePublicText
  cases sanitize value with
  | none => simp
  | some text => simp

/-- An opened item keeps its identifier. -/
lemma openItem_fst (hopen : preview.openItem env evidence item = .ok o) :
    o.1 = item.previewItemId := by
  unfold DocumentPreview.openItem at hopen
  cases hpayload : env.openPayload (preview.payloadBinding item) item.payloadEnvelope with
  | none => simp [hpayload] at hopen
  | some arguments =>
      cases hproject : env.project evidence arguments with
      | error code => simp [hpayload, hproject] at hopen
      | ok projection =>
          simp only [hpayload, hproject, bind_eq_ok, pure_eq_ok] at hopen
          obtain ⟨-, -, rfl⟩ := hopen
          rfl

/-- Every opened item belongs to the one preview that was prepared under the identifier. -/
lemma SealedHistory.opened_of_kept (h : SealedHistory env vault history)
    (hopen : preview.openItem env evidence item = .ok o) (hprepared : prepared ∈ history)
    (hid : preview.previewId = prepared.input.previewId) :
    ∃ entry ∈ prepared.entries, entry.1 = item.previewItemId ∧
      item.previewIntegrityHash = entry.2.integrityHash ∧
        o = (entry.1, entry.2.draft.clientItemId, entry.2.draft.providerArguments) ∧
        ProjectsTo env evidence entry.2.draft.providerArguments entry.2.publicRecord := by
  obtain ⟨prepared', hprepared', entry, hentry, hbinding, ho, hprojects⟩ := h.opened_item hopen
  have hpreview : prepared'.input.previewId = preview.previewId := congrArg (·.previewId) hbinding
  obtain rfl := KeyedTable.eq_of_key_eq h.fresh hprepared' hprepared (hpreview.trans hid)
  exact ⟨entry, hentry, congrArg (·.previewItemId) hbinding,
    (congrArg (·.previewIntegrityHash) hbinding).symm, ho, hprojects⟩

/-- The identifiers of the items of a prepared preview are distinct. -/
lemma Preparation.ids_nodup (prepared : Preparation env) :
    (prepared.entries.map (·.1)).Nodup := by
  obtain ⟨-, -, -, -, -, -, hwell, -⟩ := DocumentPreview.validate_eq_ok.1 prepared.valid
  have hids := hwell.item_ids
  have hsame : prepared.preview.items.map (·.previewItemId) = prepared.entries.map (·.1) := by
    have hrows := prepared.items_eq
    rw [← List.forall₂_eq_eq_eq, List.forall₂_map_left_iff, List.forall₂_map_right_iff]
    refine hrows.imp ?_
    rintro item entry ⟨i, display, rfl⟩
    rfl
  rw [← hsame]
  simp only [DocumentPreview.summary, List.map_map] at hids
  exact hids

/-- An accepted preview from which nothing was left out is the prepared one. -/
lemma SealedHistory.shownAsPrepared (h : SealedHistory env vault history)
    (hload : preview.loadConfirmable env scope version evidence now = .ok (checked, opened))
    (hprepared : prepared ∈ history) (hkept : KeptWhole prepared preview) :
    ShownAsPrepared evidence prepared checked opened := by
  obtain ⟨hopened, hvalid⟩ := loadConfirmable_eq_ok hload
  obtain ⟨-, displayName, items, hname, hitems, hchecked, -, hcontents⟩ :=
    DocumentPreview.validate_eq_ok.1 hvalid
  have hitem : ∀ item ∈ preview.items, ∃ entry ∈ prepared.entries,
      entry.1 = item.previewItemId ∧ ∃ o, preview.openItem env evidence item = .ok o ∧
        item.previewIntegrityHash = entry.2.integrityHash ∧
        o = (entry.1, entry.2.draft.clientItemId, entry.2.draft.providerArguments) ∧
        ProjectsTo env evidence entry.2.draft.providerArguments entry.2.publicRecord := by
    intro item hmem
    obtain ⟨o, -, ho⟩ := KeyedTable.exists_of_forall₂ hopened.flip hmem
    obtain ⟨entry, hentry, hid, hrest⟩ := h.opened_of_kept ho hprepared hkept.preview_id
    exact ⟨entry, hentry, hid, o, ho, hrest⟩
  -- the items are the entries, one by one
  have hrows := KeyedTable.forall₂_of_map_eq prepared.ids_nodup
    (hkept.item_ids.trans prepared.map_fst_entries.symm) hitem
  have hcheckedItems : checked.items = items := congrArg (·.items) hchecked
  have hopenedEq : opened = prepared.opened := by
    rw [Preparation.opened, ← List.forall₂_eq_eq_eq, List.forall₂_map_right_iff]
    refine KeyedTable.forall₂_comp ?_ hopened.flip hrows
    rintro o item entry ho ⟨o', ho', -, heq, -⟩
    exact (Except.ok.inj (ho.symm.trans ho')).trans heq
  have hshown : checked.items.map (·.publicRecord) =
      prepared.documents.map (·.publicRecord) := by
    rw [hcheckedItems, ← prepared.map_snd_entries, List.map_map, ← List.forall₂_eq_eq_eq,
      List.forall₂_map_left_iff, List.forall₂_map_right_iff]
    have hboth := KeyedTable.forall₂_comp (T := fun item entry => item.previewIntegrityHash =
      entry.2.integrityHash) ?_ hitems.flip hrows
    · rw [List.forall₂_iff_get] at hboth ⊢
      refine ⟨hboth.1, fun i hi hj => ?_⟩
      have hmem : items.get ⟨i, hi⟩ ∈ checked.items := by
        rw [hcheckedItems]
        exact List.get_mem _ _
      exact h.publicRecord_eq hcontents hmem hprepared (List.get_mem _ _) (hboth.2 i hi hj)
    · rintro item original entry hvalidated ⟨-, -, hhash, -⟩
      obtain ⟨-, display, -, rfl⟩ := StoredPreviewItem.validate_eq_ok.1 hvalidated
      exact hhash
  have htotals := totals_eq hvalid prepared.valid
    (hshown.trans (h.publicRecords_preview hprepared).symm)
  refine ⟨?_, hopenedEq, hshown, ?_, htotals.1, htotals.2, ?_, ?_, ?_⟩
  · rw [hchecked]
    exact hkept.preview_id
  · intro document hdocument
    rw [← prepared.map_snd_entries] at hdocument
    obtain ⟨entry, hentry, rfl⟩ := List.mem_map.1 hdocument
    obtain ⟨item, -, o, -, -, -, hprojects⟩ := KeyedTable.exists_of_forall₂ hrows hentry
    exact hprojects
  · have hsanitized := sanitizePublicText_eq_ok.1 hname
    rw [hkept.company] at hsanitized
    rw [hchecked]
    exact (Option.some.inj hsanitized).symm
  · rw [hchecked]
    exact hkept.warnings
  · rw [hchecked]
    exact hkept.review_points

/-- What is confirmed and shown is what was prepared exactly where no item was left out or moved
and the company name and the review codes of the preview are the prepared ones. -/
theorem shownAsPrepared_iff (h : SealedHistory env vault history)
    {preview checked : DocumentPreview} {scope : Scope} {version : Int} {evidence : Evidence}
    {now : DateTime} {opened : List (UUID × String × Arguments)}
    (hload : preview.loadConfirmable env scope version evidence now = .ok (checked, opened)) :
    (∃ prepared ∈ history, ShownAsPrepared evidence prepared checked opened) ↔
      ∃ prepared ∈ history, KeptWhole prepared preview := by
  constructor
  · rintro ⟨prepared, hprepared, hshown⟩
    obtain ⟨hopened, hvalid⟩ := loadConfirmable_eq_ok hload
    obtain ⟨-, displayName, items, hname, -, hchecked, -, -⟩ :=
      DocumentPreview.validate_eq_ok.1 hvalid
    refine ⟨prepared, hprepared, ?_, ?_, ?_, ?_, ?_⟩
    · exact (congrArg (·.previewId) hchecked).symm.trans hshown.preview_id
    · have hids : preview.items.map (·.previewItemId) = opened.map (·.1) := by
        rw [← List.forall₂_eq_eq_eq, List.forall₂_map_left_iff, List.forall₂_map_right_iff]
        exact hopened.imp fun item o ho => (openItem_fst ho).symm
      rw [hids, hshown.opened, Preparation.opened, List.map_map, ← prepared.map_fst_entries]
      rfl
    · rw [sanitizePublicText_eq_ok.1 hname, ← hshown.company, hchecked]
    · exact (congrArg (·.warnings) hchecked).symm.trans hshown.warnings
    · exact (congrArg (·.accountantReviewPoints) hchecked).symm.trans hshown.review_points
  · rintro ⟨prepared, hprepared, hkept⟩
    exact ⟨prepared, hprepared, h.shownAsPrepared hload hprepared hkept⟩

end

end

/-! ### Two invoices, of which one is left out -/

namespace TwoInvoices

def authority : PreparationAuthority where
  tenantId := 2
  authUserId := 3
  workspaceId := 4
  connectionId := 5
  provider := .peak
  environment := "production"
  capabilityId := "documents.invoice.create"
  capabilityVersion := hashOf '5'
  connectionRevision := 1
  providerAccountSha256 := hashOf '1'
  qualificationId := 6
  providerToolName := "invoices_create"
  schemaHash := hashOf '2'
  responseShapeHash := hashOf '3'
  evidenceRevisionSha256 := hashOf '4'
  projectorId := "peak_invoice"
  projectorVersion := hashOf '7'
  connectionReadiness := .ready
  accountDisplayName := "Company"

/-- The arguments are the number of the invoice. -/
def projection : ProjectedDocument :=
  ⟨"invoice", "Customer", 738000, 738030, oneLine "THB" 2⟩

def first : PreparedDocument Nat :=
  ⟨⟨"first", 1, [], []⟩, projection, hashOf '1', hashOf 'a'⟩

def second : PreparedDocument Nat :=
  ⟨⟨"second", 2, [], []⟩, projection, hashOf '2', hashOf 'b'⟩

def input : PreparationInput Nat where
  now := 0
  previewId := 1
  previewItemIds := [7, 8]
  supersedesPreviewId := none
  sealPayload := fun _ number =>
    { sealedPayload with ciphertext := List.replicate 16 (UInt8.ofNat number) }

/-- The hashes of the payloads that are hashed for both invoices and for the first alone. -/
def payloadHash (payload : HashPayload) : String :=
  if payload = first.payload authority then hashOf 'a'
  else if payload = second.payload authority then hashOf 'b'
  else if payload = .providerCall .peak "production" "invoices_create" "documents.invoice.create"
    (hashOf '5') (hashOf '2') [hashOf '1', hashOf '2'] then hashOf 'c'
  else if payload = .preview (hashOf 'c') "Company" "peak_invoice" (hashOf '7')
    [hashOf 'a', hashOf 'b'] [] [] then hashOf 'd'
  else if payload = .providerCall .peak "production" "invoices_create" "documents.invoice.create"
    (hashOf '5') (hashOf '2') [hashOf '1'] then hashOf 'e'
  else if payload = .preview (hashOf 'e') "Company" "peak_invoice" (hashOf '7')
    [hashOf 'a'] [] [] then hashOf 'f'
  else hashOf '0'

def bindingHash (binding : PreviewPayloadBinding) : String :=
  if binding = itemBinding authority input 7 first then "first"
  else if binding = itemBinding authority input 8 second then "second"
  else "other"

/-- The credential a payload is sealed under. -/
def credential (companyOrMerchantId : String) : CredentialBinding where
  tenantId := 2
  workspaceId := 4
  authUserId := 3
  connectionId := 5
  provider := "peak"
  companyOrMerchantId := companyOrMerchantId
  environment := "production"
  credentialType := hostedPreviewPayloadCredentialType

def vault : HostedPayloadVault Nat Nat where
  vaultCompanyBinding := bindingHash
  openEnvelope := fun presented envelope =>
    if presented = credential "first" ∧ envelope.ciphertext = List.replicate 16 1 then some 1
    else if presented = credential "second" ∧ envelope.ciphertext = List.replicate 16 2 then some 2
    else none
  payloadBytes := id
  loads := some

def env : ConfirmationEnvironment Unit Nat where
  sanitize := some
  canonicalPayloadHash := payloadHash
  validateAuthority := fun _ _ _ _ => .ok ()
  openPayload := vault.openPayload
  project := fun _ _ => .ok projection
  providerCallHash := fun _ number => if number = 1 then hashOf '1' else hashOf '2'

def identity : PreviewIdentity :=
  ⟨hashOf 'c', hashOf 'd', "Company", [], []⟩

def preview : DocumentPreview :=
  assemblePreview authority input [first, second] identity

lemma hashOf_inj {a b : Char} : hashOf a = hashOf b ↔ a = b := by
  simp [hashOf]

/-- The hashes of the documents, of the calls and of the previews are told apart by the
arguments they are taken of. -/
lemma payloadHash_first : payloadHash (first.payload authority) = hashOf 'a' :=
  if_pos rfl

lemma payloadHash_second : payloadHash (second.payload authority) = hashOf 'b' := by
  have hne : second.payload authority ≠ first.payload authority := by
    simp [PreparedDocument.payload, first, second]
  rw [payloadHash, if_neg hne, if_pos rfl]

lemma valid_preview : preview.Valid env.toDocumentEnvironment where
  checked := by
    refine ⟨by decide +kernel, ?_, by decide +kernel⟩
    simp only [Admitted]
    decide +kernel
  display_name := rfl
  items := by decide +kernel
  summary := by
    have hvalidate : preview.summary.validate = .ok preview.summary := by decide +kernel
    exact (Hosted.DocumentPreview.validate_eq_ok.1 hvalidate).2
  contents := by decide +kernel

lemma built_eq : buildPreview env authority input [first, second] identity = .ok preview := by
  simp only [buildPreview, bind_eq_ok, require_eq_ok]
  exact ⟨(), rfl, DocumentPreview.validate_self_iff.2 valid_preview⟩

def prepared : Preparation env where
  evidence := ()
  acceptsArguments := fun _ _ => true
  authority := authority
  input := input
  drafts := [first.draft, second.draft]
  documents := [first, second]
  identity := identity
  preview := preview
  documents_eq := rfl
  identity_eq := rfl
  built := built_eq

lemma mem_entries {entry : UUID × PreparedDocument Nat} :
    entry ∈ prepared.entries ↔ entry = (7, first) ∨ entry = (8, second) := by
  have hentries : prepared.entries = [(7, first), (8, second)] := rfl
  simp [hentries]

lemma bindingHash_first : bindingHash (itemBinding authority input 7 first) = "first" :=
  if_pos rfl

lemma bindingHash_second : bindingHash (itemBinding authority input 8 second) = "second" := by
  have hne : itemBinding authority input 8 second ≠ itemBinding authority input 7 first := by
    simp [itemBinding]
  rw [bindingHash, if_neg hne, if_pos rfl]

lemma credentialBinding_eq {binding : PreviewPayloadBinding} {text : String}
    (htext : bindingHash binding = text) (hscope : (binding.tenantId, binding.workspaceId,
      binding.authUserId, binding.connectionId, binding.provider, binding.environment) =
        (2, 4, 3, 5, .peak, "production")) :
    vault.credentialBinding binding = credential text := by
  simp only [Prod.mk.injEq] at hscope
  obtain ⟨h1, h2, h3, h4, h5, h6⟩ := hscope
  have hown : vault.vaultCompanyBinding binding = text := htext
  simp only [HostedPayloadVault.credentialBinding, hown, h1, h2, h3, h4, h5, h6]
  rfl

lemma sealedHistory : SealedHistory env vault [prepared] where
  opens := rfl
  fresh := by simp
  loads := fun _ => rfl
  authentic := by
    intro presented envelope number hopen
    simp only [vault] at hopen
    split at hopen
    · rename_i h
      refine ⟨_, ⟨1, ⟨prepared, List.mem_singleton.2 rfl, (7, first), mem_entries.2 (.inl rfl), rfl,
        rfl⟩, Option.some.inj hopen⟩, ?_⟩
      exact (credentialBinding_eq bindingHash_first rfl).trans h.1.symm
    · split at hopen
      · rename_i h
        refine ⟨_, ⟨2, ⟨prepared, List.mem_singleton.2 rfl, (8, second), mem_entries.2 (.inr rfl),
          rfl, rfl⟩, Option.some.inj hopen⟩, ?_⟩
        exact (credentialBinding_eq bindingHash_second rfl).trans h.1.symm
      · simp at hopen
  binding_hash := by
    rintro b c ⟨number, prepared', hprepared, entry, hentry, rfl, -⟩ heq
    obtain rfl := List.mem_singleton.1 hprepared
    have hcases : ∀ b, (bindingHash b = "first" → b = itemBinding authority input 7 first) ∧
        (bindingHash b = "second" → b = itemBinding authority input 8 second) := by
      intro b
      unfold bindingHash
      split
      · rename_i h
        exact ⟨fun _ => h, by simp⟩
      · split
        · rename_i h
          exact ⟨by simp, fun _ => h⟩
        · exact ⟨by simp, by simp⟩
    rcases mem_entries.1 hentry with rfl | rfl
    · exact (hcases b).1 (heq.trans bindingHash_first)
    · exact (hcases b).2 (heq.trans bindingHash_second)
  payload_hash := by
    rintro p q ⟨prepared', hprepared, entry, hentry, rfl⟩ heq
    obtain rfl := List.mem_singleton.1 hprepared
    have hcases : ∀ p, (payloadHash p = hashOf 'a' → p = first.payload authority) ∧
        (payloadHash p = hashOf 'b' → p = second.payload authority) := by
      intro p
      unfold payloadHash
      split
      · rename_i h
        exact ⟨fun _ => h, by simp [hashOf_inj]⟩
      · split
        · rename_i h
          exact ⟨by simp [hashOf_inj], fun _ => h⟩
        · repeat' split
          all_goals simp [hashOf_inj]
    rcases mem_entries.1 hentry with rfl | rfl
    · exact (hcases p).1 (heq.trans payloadHash_first)
    · exact (hcases p).2 (heq.trans payloadHash_second)

/-- The record without the second invoice, with the totals and the hashes made to fit. -/
def shortened : DocumentPreview :=
  { preview with
    toTotals := (oneLine "THB" 2).toTotals
    items := preview.items.take 1
    providerCallHash := hashOf 'e'
    previewIntegrityHash := hashOf 'f' }

/-- Its owner confirms a preview a minute after it was prepared. -/
def confirm (preview : DocumentPreview) :
    Except String (DocumentPreview × List (UUID × String × Nat)) :=
  preview.loadConfirmable env ⟨2, 3, 4⟩ 1 () ⟨60000000, some 0⟩

lemma confirm_preview : confirm preview = .ok (preview, [(7, "first", 1), (8, "second", 2)]) := by
  simp only [confirm, DocumentPreview.loadConfirmable, bind_eq_ok, require_eq_ok, pure_eq_ok]
  exact ⟨(), rfl, 60000000, rfl, (), rfl, (), rfl, (), by decide, (), rfl,
    [(7, "first", 1), (8, "second", 2)], by decide +kernel, preview,
    DocumentPreview.validate_self_iff.2 valid_preview, rfl⟩

lemma valid_shortened : shortened.Valid env.toDocumentEnvironment where
  checked := by
    refine ⟨valid_preview.checked.fields, ?_, by decide +kernel⟩
    simp only [Admitted]
    decide +kernel
  display_name := rfl
  items := fun item hitem => valid_preview.items item (List.mem_of_mem_take hitem)
  summary := by
    have hvalidate : shortened.summary.validate = .ok shortened.summary := by decide +kernel
    exact (Hosted.DocumentPreview.validate_eq_ok.1 hvalidate).2
  contents := by decide +kernel

lemma confirm_shortened : confirm shortened = .ok (shortened, [(7, "first", 1)]) := by
  simp only [confirm, DocumentPreview.loadConfirmable, bind_eq_ok, require_eq_ok, pure_eq_ok]
  exact ⟨(), rfl, 60000000, rfl, (), rfl, (), rfl, (), by decide, (), rfl, [(7, "first", 1)],
    by decide +kernel, shortened, DocumentPreview.validate_self_iff.2 valid_shortened, rfl⟩

/-- The whole preview is confirmed as it was prepared. -/
theorem shownAsPrepared_preview : ∃ p ∈ [prepared],
    ShownAsPrepared () p preview [(7, "first", 1), (8, "second", 2)] :=
  (shownAsPrepared_iff sealedHistory confirm_preview).2
    ⟨prepared, List.mem_singleton.2 rfl, ⟨rfl, rfl, rfl, rfl, rfl⟩⟩

/-- One invoice of the two is confirmed as the whole preview. -/
theorem shortened_confirmed :
    SealedHistory env vault [prepared] ∧
      shortened.loadConfirmable env ⟨2, 3, 4⟩ 1 () ⟨60000000, some 0⟩ =
        .ok (shortened, [(7, "first", 1)]) ∧
      ¬ ∃ p ∈ [prepared], ShownAsPrepared () p shortened [(7, "first", 1)] := by
  refine ⟨sealedHistory, confirm_shortened, ?_⟩
  rintro ⟨p, hprepared, hshown⟩
  obtain rfl := List.mem_singleton.1 hprepared
  have hlength := congrArg List.length hshown.opened
  have htwo : prepared.opened.length = 2 := rfl
  rw [htwo] at hlength
  simp at hlength

end TwoInvoices

end Documents
end Hosted
end MercuryTools
