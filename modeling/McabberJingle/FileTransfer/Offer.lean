import McabberJingle.Jingle.Access
import McabberJingle.Jingle.Check

/-! filetransfer.c: reading an offer, writing one, and the list of known transfers. -/

namespace McabberJingle.FileTransfer

open Program

variable (env : Env) (w : World)

/-- `_is_md5_hash`: the first 32 characters exist and are hexadecimal digits. -/
def isMd5Hash (hash : String) : Bool :=
  decide (32 ≤ hash.toList.length) && (hash.toList.take 32).all gAsciiIsxdigit

/-- The directory downloads go to. -/
def downloadDir : String := w.jingleFtDir.getD "/tmp"

/-- The part of `newfrommessage` before the transfer is listed: what is read from the
description, or the error that is set.
-/
def parseOffer (cn : JingleContent) : Except GError JingleFT :=
  match cn.description.getChild "offer" with
  | none => .error { code := .missing, message := "the offer element is missing" }
  | some offer =>
      match offer.getChild "file" with
      | none => .error { code := .missing, message := "the file element is missing" }
      | some node =>
          if node.getAttribute "xmlns" ≠ some NS_SI_FT then
            .error {
              code := .missing
              message := "the file transfer offer has an invalid/unsupported namespace"
            }
          else
            match node.getAttribute "name", node.getAttribute "size" with
            | some name, some sizestr =>
                let tmpsize := gAsciiStrtoll (some sizestr)
                if tmpsize < 0 then
                  .error {
                    code := .badvalue
                    message := "the offered file has a negative size"
                  }
                else
                  let path := env.buildFilename (downloadDir w) (env.pathGetBasename name)
                  -- the test is on the joined path, not on the name the peer gave
                  if path = "." then
                    .error {
                      code := .badvalue
                      message := "the offered file has an invalid filename"
                    }
                  else
                    let hash := node.getAttribute "hash"
                    if hash.any (fun hash => hash.toList.length ≠ 32 || !isMd5Hash hash) then
                      .error {
                        code := .badvalue
                        message := "the offered file has an invalid hash"
                      }
                    else
                      .ok {
                        date := env.fromIso8601 (node.getAttribute "date")
                        hash
                        name := path
                        size := tmpsize.toNat
                        transmit := 0
                        outfile := none
                        type := .offer
                        dir := .incoming
                        state := .pending
                        desc := none
                        md5 := .null
                      }
            | _, _ =>
                .error {
                  code := .missing
                  message := "an attribute of the file element is missing"
                }

/-- Append a transfer to `info_list`; `_next_index` numbers it, and the number serves as its
address.
-/
def listTransfer (jft : JingleFT) : Run FtPtr := do
  let p := (← Prog.get).infoList.next
  Prog.modify (fun s => { s with infoList := s.infoList.alloc jft })
  pure p

def newFromMessage (cn : JingleContent) : Run (Except GError FtPtr) :=
  match parseOffer env w cn with
  | .error err => pure (.error err)
  | .ok jft => do
      let p ← listTransfer jft
      pure (.ok p)

/-- `handle` of the application table: only the hash of a session-info is taken. -/
def handle (action : JingleAction) (data : FtPtr) (node : LmMessageNode)
    : Run JingleHandleStatus := do
  if action = .sessionInfo ∧ node.getAttribute "xmlns" = some NS_JINGLE_APP_FT_INFO
      ∧ node.name = "hash" then
    let _ ← readFt data
    modifyFt data (fun jft => { jft with hash := node.value })
    pure .handled
  else
    pure .notHandled

/-- `tomessage`: the `<description/>` child for a content node. -/
def tomessage (data : FtPtr) (node : LmMessageNode) : Run LmMessageNode := do
  let jft ← readFt data
  if (node.getChild "description").isSome then
    pure node
  else
    let file := element "file"
      [("xmlns", NS_SI_FT), ("name", jft.name), ("size", toString jft.size)] []
    let file := file.setOptional "hash" jft.hash
    let file := if jft.date = 0 then file else file.setOptional "date" (env.toIso8601 jft.date)
    let file :=
      match jft.desc with
      | none => file
      | some desc => file.addChild (textElement "desc" [] (some desc))
    let kind :=
      match jft.type with
      | .offer => "offer"
      | .request => "request"
    pure (node.addChild
      (element "description" [("xmlns", NS_JINGLE_APP_FT)] [element kind [] [file]]))

/-- `info` reads the transfer to describe it; the text itself is only printed. -/
def info (data : FtPtr) : Run Unit := do
  let _ ← readFt data

/-- `_new`: the transfer is listed at once and marked ERROR if the file is unusable. -/
def new (name : String) : Run (Option FtPtr) := do
  let filename := env.expandFilename name
  let p ← listTransfer {
    date := 0
    hash := none
    name := env.pathGetBasename filename
    size := 0
    transmit := 0
    outfile := none
    type := .offer
    dir := .outgoing
    state := .pending
    desc := some name
    md5 := .null
  }
  match w.file with
  | none => do
      modifyFt p (fun jft => { jft with state := .error })
      pure none
  | some info =>
      if info.regular then
        modifyFt p (fun jft => { jft with date := info.mtime, size := info.size })
        match info.opened with
        | none => do
            modifyFt p (fun jft => { jft with state := .error })
            pure none
        | some reads => do
            modifyFt p (fun jft => { jft with outfile := some (.reading reads) })
            if info.encoded then
              pure (some p)
            else
              modifyFt p (fun jft => { jft with state := .error })
              pure none
      else
        modifyFt p (fun jft => { jft with state := .error })
        pure none

end McabberJingle.FileTransfer
