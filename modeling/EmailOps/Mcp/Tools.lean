import EmailOps.Email.Approval
import EmailOps.Scheduling.Service

/-!
# The tools an agent can send with

Three tools of the MCP server lead to a send: `compose_email`, `schedule_send`,
whose row a sweep of the scheduler fires later, and `approve_agent_inbox_item`.
Each runs as the calling user, whose verified token carries the entitlements.

* `checkComposeEntitlement` is the gate of the first and the last.
* `ComposeEmailArgs.input` and `ScheduleSendArgs.payload` are what the first two
  hand on.
-/

namespace EmailOps
namespace Mcp

open Framework Text

variable [CaseMapping]

/-! ### The entitlement gate -/

def skuCustomerOps : Text := "customer-ops".toList

def skuEmailOps : Text := "email-ops".toList

/-- Spellings of the two SKUs. -/
def skuAliases : List (Text × Text) :=
  [("customer-ops".toList, skuCustomerOps), ("customer_ops".toList, skuCustomerOps),
    ("customerops".toList, skuCustomerOps), ("co".toList, skuCustomerOps),
    ("email-ops".toList, skuEmailOps), ("email_ops".toList, skuEmailOps),
    ("emailops".toList, skuEmailOps), ("mail".toList, skuEmailOps)]

def normalizeSku (code : Text) : Text :=
  let key := toLowerCase (trim code)
  (skuAliases.lookup key).getD key

inductive EntitlementMode where
  | enforce
  /-- The bootstrap before entitlements are issued. -/
  | opened
  deriving DecidableEq, Repr

/-- The mode of the environment; the first variable wins over the second. -/
def entitlementMode (ucEntitlementMode emailOpsMode : Option Text) : EntitlementMode :=
  let raw := (ucEntitlementMode.or emailOpsMode).getD "enforce".toList
  if toLowerCase (trim raw) = "open".toList then .opened else .enforce

structure EntitlementDecision where
  allowed : Bool
  mode : EntitlementMode
  reason : String

/-- May a caller with these entitlements send or draft? It takes both SKUs. -/
def checkComposeEntitlement (mode : EntitlementMode) (entitlements : List Text) :
    EntitlementDecision :=
  let skus := entitlements.map normalizeSku
  if skus.contains skuCustomerOps && skus.contains skuEmailOps then
    ⟨true, mode, "entitled: caller carries both customer-ops and email-ops"⟩
  else
    match mode with
    | .opened =>
      ⟨true, mode, "open bootstrap: dual-SKU check bypassed (UC_ENTITLEMENT_MODE=open)"⟩
    | .enforce =>
      ⟨false, mode, "not entitled: sending/drafting mail via Email-Ops requires BOTH " ++
        "customer-ops and email-ops; the caller does not carry both."⟩

/-! ### The calling user and the arguments -/

/-- What the tools read of the verified token. -/
structure User where
  ucUid : Option String
  entitlements : List Text

structure ComposeEmailArgs where
  toAddress : Text
  subject : Text
  body : Text
  mode : Option EmailMode
  inReplyToThreadId : Option String
  externalSource : String
  externalRef : String

/-- The compose request of `compose_email`: the agent is whoever the arguments say. -/
def ComposeEmailArgs.input (args : ComposeEmailArgs) : ComposeInput where
  toAddress := args.toAddress
  subject := args.subject
  body := args.body
  mode := if args.mode = some .draft then .draft else .send
  inReplyToThreadId := args.inReplyToThreadId
  externalSource := args.externalSource
  externalRef := args.externalRef
  draftedBy := some args.externalSource

structure ScheduleSendArgs where
  mailboxId : String
  toAddress : Text
  subject : Option Text
  body : Option Text
  bodyHtml : Option Text
  toAddresses : Option (List Text)
  cc : Option (List Text)
  bcc : Option (List Text)
  inReplyToThreadId : Option String
  sendAt : ℕ

/-- The payload `schedule_send` hands to the scheduler. -/
def ScheduleSendArgs.payload (args : ScheduleSendArgs) : Json :=
  let text (t : Option Text) : Json := (t.map Json.str).getD .null
  let texts (key : String) (ts : Option (List Text)) : List (Text × Json) :=
    (ts.map fun ts => (key.toList, Json.arr (ts.map .str))).toList
  .obj
    ([("toAddress".toList, .str args.toAddress),
      ("subject".toList, .str (args.subject.getD [])),
      ("body".toList, .str (args.body.getD [])),
      ("bodyHtml".toList, text args.bodyHtml)] ++
      texts "toAddresses" args.toAddresses ++ texts "cc" args.cc ++ texts "bcc" args.bcc ++
      [("inReplyToThreadId".toList, text (args.inReplyToThreadId.map String.toList))])

/-- The gate of `approve_agent_inbox_item` on a mail draft. A missing item is reported
before any verdict, and a cleanup item has a gate of its own, which sends nothing. -/
def approveGate (mode : EntitlementMode) (user : User) (db : Db) (workspaceId itemId : String) :
    Bool :=
  match findItem db workspaceId itemId with
  | none => false
  | some item => item.kind = .email && (checkComposeEntitlement mode user.entitlements).allowed

end Mcp
end EmailOps
