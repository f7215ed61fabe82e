import Mathlib.Data.List.Basic
import Mathlib.Logic.Function.Basic

/-!
# The web server's connections

`webserver_main` of `webserver.c` from one call of `select` to the next, with what
`http_engine` does to the status of a table entry. Beside the variables of the
source stand the descriptors that `accept` has returned and that are not closed
yet, and two marks for what must not happen to them.
-/

namespace SerialNet.Web

/-! ## http_engine -/

inductive Status
  | closed | send
  deriving DecidableEq, Repr

inductive FileType
  | unknown | html | xml | js | css | txt | icon | gif | jpeg
  deriving DecidableEq, Repr

/-- The fields of `HTTP_Table` that decide about an entry. -/
structure Entry where
  sockFd : Int
  status : Status
  ftype : FileType
  flen : UInt32
  fpos : UInt32
  deriving DecidableEq, Repr

/-- What the file table answers about a name, `flen` being 0 if there is no such
file, and what `http_fparse` or `http_fdata` return from call to call. -/
structure File where
  ftype : FileType
  flen : UInt32
  pieces : List UInt32

/-- The length of the header that `sprintf` writes for a type of file. -/
def headerLen (t : FileType) (len : UInt32) : UInt32 :=
  match t with
  | .html | .js | .css | .icon => len
  | _ => 0

/-- `do ... while(fpos < flen)` over the pieces: the position and `len` behind the
loop, nothing if the pieces end before it. A dynamic page has its header before
every piece. -/
def sendPieces (dynamic : Bool) (header flen : UInt32) : UInt32 → UInt32 → List UInt32 → Option (UInt32 × UInt32)
  | _, _, [] => none
  | fpos, len, i :: rest =>
    let fpos := fpos + i
    let len := (if dynamic then header else len) + i
    if len = 0 then some (fpos, len)
    else if fpos < flen then sendPieces dynamic header flen fpos 0 rest
    else some (fpos, 0)

def httpClose (e : Entry) : Entry := { e with status := .closed, flen := 0 }

/-- `http_sendfile` behind its header; `len` is the length of that. -/
def sendBody (e : Entry) (header len : UInt32) (pieces : List UInt32) : Option Entry :=
  if e.flen = 0 then some e
  else
    let sent := match e.ftype with
      | .html | .xml => sendPieces true header e.flen e.fpos len pieces
      | .unknown => some (e.fpos, len)
      | _ => sendPieces false header e.flen e.fpos len pieces
    sent.map fun (fpos, len) =>
      let e := { e with fpos := fpos }
      if e.flen ≤ fpos ∨ len = 0 then httpClose e else e

/-- `http_sendfile` with a name, which begins a transfer. -/
def httpSendfile (e : Entry) (header : UInt32) (f : File) : Option Entry :=
  let e := { e with status := .send, ftype := f.ftype, flen := f.flen, fpos := 0 }
  if f.flen = 0 then some { e with status := .closed }
  else sendBody e header (headerLen f.ftype header) f.pieces

/-- What a request makes `http_engine` do: answer without a file, send one, or
reset the chip. `header` is the length of the header text. -/
inductive Action
  | answer
  | sendfile (header : UInt32) (f : File)
  | reset

/-- The header and the pieces of a transfer that goes on. -/
def Action.rest : Action → UInt32 × List UInt32
  | sendfile header f => (header, f.pieces)
  | _ => (0, [])

/-- `http_engine`; no result if it does not come back. -/
def httpEngine (e : Entry) (act : Action) : Option Entry :=
  match e.status with
  | .closed =>
    match act with
    | .answer => some e
    | .sendfile header f => httpSendfile e header f
    | .reset => none
  | .send => sendBody e act.rest.1 0 act.rest.2

/-! ## webserver_main -/

def tcpEntries : Nat := 5

def memNumNetconn : Nat := 8

structure Server where
  httpTable : Nat → Entry
  connAmount : Int
  maxsock : Int
  sockFd : Int
  /-- The bits of `fdsr`. -/
  fdsr : Nat → Bool
  /-- What `accept` has returned and `close` has not got since. -/
  live : List Int
  /-- `close` has got a descriptor that was not live. -/
  wrongClose : Bool
  /-- An accepted descriptor was stored over a live one. -/
  overwrote : Bool

def emptyEntry : Entry := { sockFd := -1, status := .closed, ftype := .unknown, flen := 0, fpos := 0 }

/-- From the label `WebServer` to the first `select`, listening on `fd`. -/
def startServer (s : Server) (fd : Int) : Server :=
  { s with
    connAmount := 0
    sockFd := fd
    maxsock := fd
    httpTable := fun i => if i < tcpEntries then { s.httpTable i with status := .closed, sockFd := -1 } else s.httpTable i }

def Server.boot (fd : Int) : Server :=
  startServer
    { httpTable := fun _ => emptyEntry, connAmount := 0, maxsock := 0, sockFd := 0, fdsr := fun _ => false, live := [],
      wrongClose := false, overwrote := false } fd

/-- The bit of a descriptor: that of -1 is `fd_bits[(-1)/8] & (1 << (-1 & 7))`. -/
def fdBit (fd : Int) : Nat := if fd < 0 then 7 else fd.toNat

def Server.isSet (s : Server) (fd : Int) : Bool := s.fdsr (fdBit fd)

def Server.close (s : Server) (fd : Int) : Server :=
  { s with live := s.live.erase fd, wrongClose := s.wrongClose || decide (fd ∉ s.live) }

/-- Close the entry `i`, clear its bit and count it out. -/
def Server.drop (s : Server) (i : Nat) : Server :=
  let fd := (s.httpTable i).sockFd
  { s.close fd with
    fdsr := Function.update s.fdsr (fdBit fd) false
    httpTable := Function.update s.httpTable i { s.httpTable i with sockFd := -1 }
    connAmount := s.connAmount - 1 }

def Server.setStatus (s : Server) (i : Nat) (status : Status) : Server :=
  { s with httpTable := Function.update s.httpTable i { s.httpTable i with status := status } }

/-- The loop that closes the entries whose transfer has ended. -/
def sweepClosed (s : Server) : Server :=
  (List.range tcpEntries).foldl
    (fun s i => if 0 ≤ (s.httpTable i).sockFd ∧ (s.httpTable i).status = .closed then s.drop i else s) s

def sweepAll (s : Server) : Server :=
  (List.range tcpEntries).foldl
    (fun s i => if 0 ≤ (s.httpTable i).sockFd then (s.setStatus i .closed).drop i else s) s

/-- `recv` on a connection: its failure, or a request and what comes of it. -/
inductive Recv
  | failed
  | data (act : Action)

def recvFailed (s : Server) (i : Nat) : Server :=
  let s := s.setStatus i .closed
  sweepClosed (if 0 ≤ (s.httpTable i).sockFd then s.drop i else s)

/-- `for (i = 0; i < conn_amount; i++)`, from the indices still to come. The loop in
the failure branch leaves its own index at `TCP_ENTRIES`, which ends this one too. -/
def recvLoop (recv : Nat → Recv) : List Nat → Server → Option Server
  | [], s => some s
  | i :: rest, s =>
    if s.connAmount ≤ i then some s
    else if s.isSet (s.httpTable i).sockFd then
      match recv i with
      | .failed => some (recvFailed s i)
      | .data act =>
        (httpEngine (s.httpTable i) act).bind fun e =>
          recvLoop recv rest { s with httpTable := Function.update s.httpTable i e }
    else recvLoop recv rest s

def makeRoom (s : Server) : Server := if (tcpEntries : Int) ≤ s.connAmount then sweepClosed s else s

/-- What follows `accept`, which has returned `fd`. -/
def accepted (s : Server) (fd : Int) : Server :=
  if fd < 0 then s
  else
    let s := { s with live := fd :: s.live }
    if s.connAmount < (tcpEntries : Int) then
      let i := s.connAmount.toNat
      { s with
        httpTable := Function.update s.httpTable i { s.httpTable i with sockFd := fd }
        overwrote := s.overwrote || decide (0 ≤ (s.httpTable i).sockFd)
        connAmount := s.connAmount + 1
        maxsock := fd + 1 }
    else s.close fd

/-- What `select` returns: a timeout or an error, with the mode of the module then
and the next listening descriptor should the server start again; or the ready
descriptors, with the outcomes of `recv` and `accept`. -/
inductive Outcome
  | timeout (softap : Bool) (next : Int)
  | ready (bits : Nat → Bool) (recv : Nat → Recv) (accept : Int)

/-- The bits `select` leaves: of the descriptors asked for, those below its first
argument that are ready. -/
def selected (s : Server) (bits : Nat → Bool) : Nat → Bool := fun n =>
  bits n && decide ((n : Int) < s.maxsock + 1) && (decide (fdBit s.sockFd = n) ||
    (List.range tcpEntries).any fun i =>
      0 ≤ (s.httpTable i).sockFd && (s.httpTable i).sockFd < memNumNetconn && decide (fdBit (s.httpTable i).sockFd = n))

/-- The server where it calls `accept`, unless `recvLoop` does not come back. -/
def atAccept (s : Server) (bits : Nat → Bool) (recv : Nat → Recv) : Option Server :=
  recvLoop recv (List.range tcpEntries) { s with fdsr := selected s bits }

/-- From one `select` to the next. -/
def serve (s : Server) : Outcome → Option Server
  | .timeout softap next => if softap then some s else some (startServer (sweepAll s) next)
  | .ready bits recv accept =>
    (atAccept s bits recv).map fun s => if s.isSet s.sockFd then accepted (makeRoom s) accept else s

end SerialNet.Web
