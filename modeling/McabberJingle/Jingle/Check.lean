import McabberJingle.Jingle.Types

/-! check.c: a `<jingle/>` element becomes a `JingleNode`, its `<content/>` children become
`JingleContent`s, or an error is set.
-/

namespace McabberJingle

inductive JingleAction where
  | unknownAction
  | contentAccept | contentAdd | contentModify | contentReject | contentRemove
  | descriptionInfo
  | securityInfo
  | sessionAccept | sessionInfo | sessionInitiate | sessionTerminate
  | transportAccept | transportInfo | transportReject | transportReplace
  deriving DecidableEq

/-- `jingle_action_list` in order; the entry of the unknown action has no name. -/
def jingleActionList : List (Option String × JingleAction) := [
  (none, .unknownAction),
  (some "content-accept", .contentAccept),
  (some "content-add", .contentAdd),
  (some "content-modify", .contentModify),
  (some "content-reject", .contentReject),
  (some "content-remove", .contentRemove),
  (some "description-info", .descriptionInfo),
  (some "security-info", .securityInfo),
  (some "session-accept", .sessionAccept),
  (some "session-info", .sessionInfo),
  (some "session-initiate", .sessionInitiate),
  (some "session-terminate", .sessionTerminate),
  (some "transport-accept", .transportAccept),
  (some "transport-info", .transportInfo),
  (some "transport-reject", .transportReject),
  (some "transport-replace", .transportReplace)
]

def jingleActionFromStr (string : String) : JingleAction :=
  ((jingleActionList.find? (fun entry => entry.1 == some string)).map Prod.snd).getD
    .unknownAction

/-- `jingle_action_list[action].name`. -/
def JingleAction.name (action : JingleAction) : String :=
  ((jingleActionList.find? (fun entry => entry.2 == action)).bind Prod.fst).getD ""

inductive JingleCheckError where
  | missing | badelem | badvalue
  deriving DecidableEq

/-- A `GError` of the domain JINGLE_CHECK_ERROR. -/
structure GError where
  code : JingleCheckError
  message : String
  deriving DecidableEq

/-- `g_set_error` and `g_propagate_error` on an error that is set keep the first one. -/
def setError (err : Option GError) (new : GError) : Option GError := some (err.getD new)

inductive JingleCreator where
  | initiator | responder
  deriving DecidableEq

inductive JingleSenders where
  | both | initiator | none | responder
  deriving DecidableEq

/-- `creator` is none for the index -1 of an invalid attribute. -/
structure JingleContent where
  creator : Option JingleCreator
  disposition : Option String
  name : String
  senders : JingleSenders
  description : LmMessageNode
  transport : LmMessageNode

/-- `contentFreed` tells that the nodes of `content` were freed without resetting it. -/
structure JingleNode where
  message : LmMessage
  node : LmMessageNode
  action : JingleAction
  initiator : Option String
  responder : Option String
  sid : String
  content : List JingleContent
  contentFreed : Bool

def jingleContentCreator : List String := ["initiator", "responder"]

def jingleContentSenders : List String := ["both", "initiator", "none", "responder"]

/-- `index_in_array`, none standing for -1. -/
def indexInArray (str : String) (array : List String) : Option Nat :=
  array.findIdx? (fun entry => entry == str)

/-- The cast `(JingleCreator) tmp`; the index -1 names no creator. -/
def JingleCreator.ofIndex : Option Nat → Option JingleCreator
  | some 0 => some .initiator
  | some 1 => some .responder
  | _ => none

/-- The cast `(JingleSenders) tmp2`. -/
def JingleSenders.ofIndex : Nat → JingleSenders
  | 0 => .both
  | 1 => .initiator
  | 2 => .none
  | _ => .responder

def checkJingle (checkJidSyntax : String → Bool) (message : LmMessage)
    (node : LmMessageNode)
    : Except GError JingleNode :=
  match node.getAttribute "action", node.getAttribute "sid" with
  | some actionstr, some sid =>
      let initiator := node.getAttribute "initiator"
      if initiator.any checkJidSyntax then
        .error {
          code := .badvalue
          message := "the initiator attribute in invalid (not a jid)"
        }
      else if jingleActionFromStr actionstr = .unknownAction then
        .error { code := .badvalue, message := "the action attribute is invalid" }
      else
        .ok {
          message
          node
          action := jingleActionFromStr actionstr
          initiator
          responder := node.getAttribute "responder"
          sid
          content := []
          contentFreed := false
        }
  | _, _ =>
      .error {
        code := .missing
        message := "an attribute of the jingle element is missing"
      }

/-- A bad creator only sets the error: the content is still parsed and may be returned. -/
def checkContent (node : LmMessageNode) (err : Option GError)
    : Option JingleContent × Option GError :=
  match node.getAttribute "name" with
  | none =>
      (none, setError err {
        code := .missing
        message := "the name attribute of the content element is missing"
      })
  | some name =>
      let creator : Option JingleCreator :=
        match node.getAttribute "creator" with
        | none => some .initiator
        | some creatorstr =>
            JingleCreator.ofIndex (indexInArray creatorstr jingleContentCreator)
      let err :=
        match creator with
        | none =>
            setError err { code := .badvalue, message := "the creator attribute is invalid" }
        | some _ => err
      let senders : Option JingleSenders :=
        match node.getAttribute "senders" with
        | none => some .both
        | some sendersstr =>
            (indexInArray sendersstr jingleContentSenders).map JingleSenders.ofIndex
      match senders with
      | none =>
          (none,
            setError err { code := .badvalue, message := "the senders attribute is invalid" })
      | some senders =>
          match node.getChild "description", node.getChild "transport" with
          | some description, some transport =>
              (some {
                creator
                disposition := node.getAttribute "disposition"
                name
                senders
                description
                transport
              }, err)
          | _, _ =>
              (none, setError err {
                code := .missing
                message := "a child element of content is missing"
              })

/-- The result of `check_contents`: its boolean, the error set, and the node with the list
built so far.
-/
structure CheckedContents where
  ok : Bool
  err : Option GError
  jn : JingleNode

/-- The loop of `check_contents` over the children of `<jingle/>`. A bad content frees the
list of the good ones before it but leaves `jn->content` pointing there.
-/
def checkContentsLoop (jn : JingleNode) (err : Option GError)
    : List LmMessageNode → CheckedContents
  | [] => { ok := true, err, jn }
  | child :: rest =>
      if child.name = "content" then
        match checkContent child err with
        | (none, err) =>
            { ok := false, err, jn := { jn with contentFreed := !jn.content.isEmpty } }
        | (some cn, err) =>
            checkContentsLoop { jn with content := jn.content ++ [cn] } err rest
      else
        checkContentsLoop jn err rest

def checkContents (jn : JingleNode) : CheckedContents :=
  checkContentsLoop jn none jn.node.children

end McabberJingle
