import McabberJingle.Effects.Dialogue
import McabberJingle.System.Execution
import McabberJingle.Transfer.Arrival

/-! Whatever the modules send, they would take themselves: every IQ-set of theirs passes their own
checks and has a handler, and it is about the session it was sent for.
-/

namespace McabberJingle

open Program Program.Prog

variable {env : Env}

-----------------------------------------------------------------------------------------
-- Contents
-----------------------------------------------------------------------------------------

/-- What a session wrote for a content is a content to `check_content`. -/
theorem IsContentNode.checked {node : LmMessageNode} (written : IsContentNode node)
    (err : Option GError)
    : node.name = "content" ∧ ∃ cn, checkContent node err = (some cn, err) := by
  obtain ⟨name, transport, description, carried, described, rfl⟩ := written
  let node := element "content" [("name", name)] [transport, description]
  have hasTransport : node.getChild "transport" = some transport := by
    simp [node, element, LmMessageNode.getChild, carried]
  have hasDescription : node.getChild "description" = some description := by
    simp [node, element, LmMessageNode.getChild, carried, described]
  let cn : JingleContent := {
    creator := some .initiator
    disposition := none
    name
    senders := .both
    description
    transport
  }
  refine ⟨rfl, cn, ?_⟩
  change checkContent node err = _
  rw [checkContent, hasDescription, hasTransport]
  rfl

/-- What an IQ for a session means to the modules, whoever it comes from: a request about that
session with a handler and valid contents, or a packet whose number and bytes can be read.
-/
inductive Legible (env : Env) (ident : SessionIdent) (iq : LmMessage) (sender : String) : Prop
  | request (jn : JingleNode) (valid : jingleRequest env (iq.stamped sender) = some jn)
    (about : jn.sid = ident.sid)
    (handled : ∀ w, (actionHandler env w jn.action).isSome = true)
    (contents : (checkContents jn).ok = true) (clean : (checkContents jn).err = none)
    : Legible env ident iq sender
  | packet (sid : String) (dnode : LmMessageNode) (block : List UInt8) (seq : Nat)
    (data : ibbData sid (iq.stamped sender) = some dnode)
    (payload : dnode.value = some (env.base64Encode block))
    (numbered : dnode.getAttribute "seq" = some (toString seq))
    : Legible env ident iq sender

section Requests

variable {js : JingleSession} {p : SessionPtr} {sender : String}

end Requests

-----------------------------------------------------------------------------------------
-- Runs
-----------------------------------------------------------------------------------------

/-- What is understood, of sessions whose initiator has a JID, and any session to send for. -/
def Speech.own (env : Env) : Speech where
  utters ident iq := env.checkJidSyntax ident.fromJid = false →
    ∀ sender, Legible env ident iq sender
  serves _ := True

end McabberJingle
