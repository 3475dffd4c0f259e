import MercuryTools.Framework.Dictionaries
import MercuryTools.Framework.Json
import MercuryTools.Local.CredentialStore

/-!
# The connector catalog

`connectors/catalog.py`: the connectors, their connection modes, and which provider capabilities a
capability of a Skill stands for.
-/

namespace MercuryTools.Skills

open Local (strip)

inductive ConnectionMode where
  | nativeMcp
  | apiDriver
  | localBridge
  deriving DecidableEq, Repr

def ConnectionMode.value : ConnectionMode → String
  | .nativeMcp => "native_mcp"
  | .apiDriver => "api_driver"
  | .localBridge => "local_bridge"

/-- `CapabilityState`, with the states that the catalog has. -/
inductive CapabilityState where
  | declared
  | notValidated
  | providerUnavailable
  deriving DecidableEq, Repr

structure ConnectorModeManifest where
  mode : ConnectionMode
  capabilitySource : String
  providerCapabilityStatus : Dict String CapabilityState
  capabilityAliases : Dict String (List String)

structure ConnectorManifest where
  connectorId : String
  connectionModes : List ConnectorModeManifest

/-- `text.strip().lower()`, where `lower` is `str.lower`. -/
def normalize (lower : String → String) (text : String) : String :=
  lower (String.ofList (strip text.toList))

/-- `ConnectorManifest.connection_mode` -/
def ConnectorManifest.connectionMode (connector : ConnectorManifest) (lower : String → String)
    (mode : String) : Option ConnectorModeManifest :=
  connector.connectionModes.find? fun manifest => manifest.mode.value == normalize lower mode

/-- `ConnectorManifest.provider_capabilities` -/
def ConnectorManifest.providerCapabilities (connector : ConnectorManifest)
    (lower : String → String) (mode normalizedCapability : String) : List String :=
  match connector.connectionMode lower mode with
  | none => []
  | some manifest =>
      let normalized := normalize lower normalizedCapability
      match manifest.capabilityAliases.get normalized with
      | some actions => actions
      | none =>
          if (manifest.providerCapabilityStatus.get normalized).isSome then [normalized] else []

/-- `connector_by_id` -/
def connectorById (catalog : List ConnectorManifest) (lower : String → String)
    (connectorId : String) : Option ConnectorManifest :=
  catalog.find? fun connector => connector.connectorId == normalize lower connectorId

/-- `FLOWACCOUNT_CAPABILITIES` -/
def flowaccountCapabilities : List String :=
  ["auth.token.create", "company.info.read", "company.payment_channels.read",
    "company.settings.read", "contacts.list", "contacts.get", "contacts.create", "contacts.update",
    "products.list", "products.get", "products.create", "products.update",
    "documents.quotation.list", "documents.quotation.get", "documents.quotation.create",
    "documents.quotation.update", "documents.quotation.delete", "documents.billing_note.list",
    "documents.billing_note.get", "documents.billing_note.create", "documents.billing_note.update",
    "documents.billing_note.delete", "documents.invoice.list", "documents.invoice.get",
    "documents.invoice.create", "documents.invoice.update", "documents.invoice.delete",
    "documents.invoice.payment.create", "documents.receipt.list", "documents.receipt.get",
    "documents.receipt.create", "documents.receipt.update", "documents.receipt.delete",
    "documents.purchase_order.list", "documents.purchase_order.get",
    "documents.purchase_order.create", "documents.purchase_order.update",
    "documents.purchase_order.delete", "documents.receiving_inventory.list",
    "documents.receiving_inventory.get", "documents.receiving_inventory.create",
    "documents.receiving_inventory.update", "documents.receiving_inventory.delete",
    "documents.expense.list", "documents.expense.get", "documents.expense.create",
    "documents.expense.update", "documents.expense.delete", "documents.withholding_tax.list",
    "documents.withholding_tax.get", "documents.withholding_tax.create",
    "documents.withholding_tax.update", "documents.withholding_tax.delete",
    "documents.attachment.upload", "documents.email.send", "documents.share_link.create",
    "documents.status.update", "journal.draft.create", "journal.approve.create",
    "tax.vat_summary.read"]

/-- `PEAK_CAPABILITIES` -/
def peakCapabilities : List String :=
  ["auth.client_token.create", "user.info.read", "contacts.get", "contacts.list",
    "contacts.create", "contacts.update", "products.get", "products.list", "products.create",
    "products.update", "services.get", "services.list", "services.create", "services.update",
    "payment_methods.list", "payment_methods.create", "documents.quotation.get",
    "documents.quotation.list", "documents.quotation.create", "documents.quotation.update",
    "documents.quotation.void", "documents.invoice.get", "documents.invoice.list",
    "documents.invoice.create", "documents.invoice.update", "documents.invoice.approve",
    "documents.invoice.payment.create", "documents.invoice.payment.void", "documents.receipt.get",
    "documents.receipt.list", "documents.receipt.create", "documents.receipt.update",
    "documents.receipt.void", "documents.receipt.create_from_invoice", "documents.expense.get",
    "documents.expense.list", "documents.expense.create", "documents.expense.update",
    "documents.expense.payment.create", "documents.purchase_order.get",
    "documents.purchase_order.list", "documents.purchase_order.create",
    "documents.billing_note.get", "documents.billing_note.create", "documents.credit_note.get",
    "documents.credit_note.create", "documents.credit_note_expense.get",
    "documents.credit_note_expense.create", "daily_journal.get", "daily_journal.create",
    "journal.account_code.read", "tags.create", "tags.remove", "files.attach", "invitation.create"]

/-- `_states` -/
def states (capabilities : List String) (state : CapabilityState) : Dict String CapabilityState :=
  capabilities.map (·, state)

/-- `_aliases` -/
def aliases (companyAction invoiceAction : String) : Dict String (List String) :=
  [("company.read", [companyAction]), ("documents.invoice.read", [invoiceAction])]

/-- `CONNECTOR_CATALOG` -/
def connectorCatalog : List ConnectorManifest :=
  [ { connectorId := "flowaccount"
      connectionModes :=
        [ { mode := .apiDriver
            capabilitySource := "reviewed_api_catalog"
            providerCapabilityStatus := states flowaccountCapabilities .notValidated
            capabilityAliases := aliases "company.info.read" "documents.invoice.get" ++
              [("tax.vat.summary.read", ["tax.vat_summary.read"])] },
          { mode := .nativeMcp
            capabilitySource := "provider_documentation"
            providerCapabilityStatus :=
              [("company.info.read", .declared), ("documents.invoice.list", .declared),
                ("documents.invoice.get", .declared),
                ("documents.invoice.create", .providerUnavailable)]
            capabilityAliases := aliases "company.info.read" "documents.invoice.get" } ] },
    { connectorId := "peak"
      connectionModes :=
        [ { mode := .apiDriver
            capabilitySource := "reviewed_api_catalog"
            providerCapabilityStatus := states peakCapabilities .notValidated
            capabilityAliases := aliases "user.info.read" "documents.invoice.get" ++
              [("journal.read", ["daily_journal.get"])] } ] },
    { connectorId := "express"
      connectionModes := [⟨.localBridge, "local_bridge_discovery", [], []⟩] },
    { connectorId := "custom"
      connectionModes := [⟨.apiDriver, "imported_catalog", [], []⟩] },
    { connectorId := "generic_mcp"
      connectionModes := [⟨.nativeMcp, "discovered_tools", [], []⟩] } ]

end MercuryTools.Skills
