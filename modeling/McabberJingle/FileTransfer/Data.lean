import McabberJingle.FileTransfer.Offer

/-! filetransfer.c: bytes arriving for a transfer, and the end of a session. -/

namespace McabberJingle.FileTransfer

open Program

variable (env : Env) (w : World)

/-- `g_checksum_update`; a NULL checksum is ignored with a critical. -/
def checksumUpdate (md5 : GChecksum) (data : List UInt8) : Run GChecksum :=
  match md5 with
  | .null => pure .null
  | .running seen => pure (.running (seen ++ data))
  | .freed => Prog.fail (.useAfterFree .checksum)

/-- `g_checksum_get_string`; a NULL checksum gives NULL. -/
def checksumGetString (md5 : GChecksum) : Run (Option String) :=
  match md5 with
  | .null => pure none
  | .running seen => pure (some (env.md5 seen))
  | .freed => Prog.fail (.useAfterFree .checksum)

def diskOp (op : DiskOp) : Run Unit :=
  Prog.modify (fun s => { s with disk := s.disk ++ [op] })

/-- How many of the bytes that wait in the channel get into the file: all with a flush that
succeeds, which is tried only after a write that did.
-/
def reaching (waiting : List UInt8) : Nat :=
  if w.write.status && w.write.flushed then waiting.length else w.write.reached

/-- The write and the flush of `handle_data`, once the file is open. -/
def writeData (p : FtPtr) (data : List UInt8) : Run Bool := do
  modifyFt p (fun jft => { jft with state := .starting })
  let waiting := (← readFt p).waiting ++ data.take w.write.written
  modifyFt p (fun jft =>
    { jft with outfile := some (.writing (waiting.drop (reaching w waiting))) })
  diskOp (.wrote p (waiting.take (reaching w waiting)))
  if w.write.status && w.write.flushed && w.write.written == data.length then
    modifyFt p (fun jft => { jft with transmit := jft.transmit + data.length })
    pure true
  else
    pure false

def handleData (p : FtPtr) (data : List UInt8) : Run Bool := do
  let jft ← readFt p
  if jft.dir ≠ .incoming then
    pure false
  else
    let md5 :=
      match jft.md5 with
      | .null => .running []
      | md5 => md5
    let md5 ← checksumUpdate md5 data
    modifyFt p (fun jft => { jft with md5 })
    match jft.outfile with
    | some _ => writeData w p data
    | none =>
        if w.write.opened then
          modifyFt p (fun jft => { jft with outfile := some (.writing []), state := .starting })
          diskOp (.created p jft.name)
          if w.write.encoded then
            writeData w p data
          else
            pure false
        else
          pure false

/-- Whether bytes for a transfer get as far as its file, or create it. -/
def writesFile (s : State) (p : FtPtr) : Bool :=
  (s.infoList.get? p).any (fun jft =>
    jft.dir == .incoming && (jft.outfile.isSome || w.write.opened))

/-- `_check_hash` with a non-NULL announced hash and checksum. -/
def checkHash (hash1 : String) (md5 : GChecksum) : Run Bool := do
  let hash2 ← checksumGetString env md5
  pure (hash2.any (fun hash2 => gAsciiStrncaseeq hash1 hash2 32))

def stopReport (p : FtPtr) (report : StopReport) : Run Unit :=
  Prog.modify (fun s => { s with stopReports := s.stopReports ++ [(p, report)] })

/-- `g_io_channel_shutdown (jft->outfile, TRUE, &err)`: what waits gets into the file, as far as the
flush gets, and nothing waits any more.
-/
def shutdown (p : FtPtr) (jft : JingleFT) : Run Unit :=
  match jft.waiting with
  | [] => pure ()
  | byte :: rest => do
      modifyFt p (fun jft => { jft with outfile := some (.writing []) })
      diskOp (.wrote p ((byte :: rest).take (w.shutdown p)))

/-- `stop`, run when a session-terminate arrives. -/
def stop (p : FtPtr) : Run Unit := do
  let jft ← readFt p
  shutdown w p jft
  if jft.transmit < jft.size then
    modifyFt p (fun jft => { jft with state := .error })
    stopReport p .incomplete
  else
    modifyFt p (fun jft => { jft with state := .ending })
    match jft.hash, jft.md5 with
    | some _, .null => stopReport p .notVerified
    | some hash, md5 => do
        if ← checkHash env hash md5 then
          stopReport p .verified
        else
          stopReport p .corrupt
    | none, _ => stopReport p .notVerified

end McabberJingle.FileTransfer
