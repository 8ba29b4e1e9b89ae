import HtcLeo.Calls
import HtcLeo.PdsmCall
import HtcLeo.SvcHeader
import HtcLeo.XdrStruct

/-!
# The requests of the GPS library over the wire (`libgps/leo-gps-rpc.c`)

A request to the position services is one `clnt_call`: the arguments are
either some words (`xdr_args`) or a structure that is encoded field by
field, the answer is one word, and without an answer the process ends.

The modem is not part of the sources. It is taken to be a server of the
same RPC library, which knows the wire format of each procedure, decodes
it with the procedures of `xdr.c` and answers with any word. A request
then arrives as it was made and its answer comes back (`request_served`).
The handles on both sides still match for the next request, hence any
program that makes requests ends over the wire as it does against the
answers of the modem alone (`program_served`).
-/

namespace HtcLeo

/-! ## The arguments -/

/-- `struct xtra_data_params`; the bytes at the pointer are those that belong to
the part. -/
structure XtraDataParams where
  data0 : Word
  data1 : Word
  data2 : Word
  data3 : Word
  xtraDataPtr : Option (List Byte)
  partLen : Word
  part : Byte
  totalParts : Byte
deriving DecidableEq

/-- The length goes out twice: once by itself and once in front of the bytes. -/
def xdrXtraDataArgs : XdrProc XtraDataParams :=
  xdrField xdrULong (·.data0) (fun p v => { p with data0 := v }) <|
  xdrField xdrInt (·.data1) (fun p v => { p with data1 := v }) <|
  xdrField xdrULong (·.data2) (fun p v => { p with data2 := v }) <|
  xdrField xdrULong (·.partLen) (fun p v => { p with partLen := v }) <|
  xdrField (xdrBytes (~~~0)) (fun p => ⟨p.xtraDataPtr, p.partLen⟩)
    (fun p b => { p with xtraDataPtr := b.ptr, partLen := b.size }) <|
  xdrField xdrUChar (·.part) (fun p v => { p with part := v }) <|
  xdrField xdrUChar (·.totalParts) (fun p v => { p with totalParts := v }) <|
  xdrField xdrULong (·.data3) (fun p v => { p with data3 := v }) xdrDone

/-- The first byte of a word in the memory of the target. -/
def firstByte (w : Word) : Byte := w.extractLsb' 0 8

def setFirstByte (w : Word) (b : Byte) : Word := w.extractLsb' 8 24 ++ b

theorem setFirstByte_firstByte (w : Word) : setFirstByte w (firstByte w) = w := by
  apply BitVec.eq_of_toNat_eq
  simp only [setFirstByte, firstByte, BitVec.toNat_append, BitVec.extractLsb'_toNat]
  have hlt := w.isLt
  rw [Nat.shiftLeft_eq, Nat.mul_comm, Nat.shiftRight_eq_div_pow, Nat.shiftRight_zero,
    ← Nat.two_pow_add_eq_or_of_lt (Nat.mod_lt _ (by decide))]
  omega

/-- `pdsm_xtra_time_info_type` -/
structure PdsmXtraTimeInfo where
  uncertainty : Word
  timeUtc : BitVec 64
  refToUtcTime : Word
  forceFlag : Word
deriving DecidableEq

/-- The flags are `int`s, of which `xdr_u_char` gets the first byte. -/
def xdrPdsmXtraTimeInfo : XdrProc PdsmXtraTimeInfo :=
  xdrField xdrUQuadT (·.timeUtc) (fun p v => { p with timeUtc := v }) <|
  xdrField xdrULong (·.uncertainty) (fun p v => { p with uncertainty := v }) <|
  xdrField xdrUChar (fun p => firstByte p.refToUtcTime)
    (fun p v => { p with refToUtcTime := setFirstByte p.refToUtcTime v }) <|
  xdrField xdrUChar (fun p => firstByte p.forceFlag)
    (fun p v => { p with forceFlag := setFirstByte p.forceFlag v }) xdrDone

/-- `struct xtra_time_params` -/
structure XtraTimeParams where
  data0 : Word
  data1 : Word
  data2 : Word
  timeInfoPtr : Option PdsmXtraTimeInfo
deriving DecidableEq

def xdrXtraTimeArgs : XdrProc XtraTimeParams :=
  xdrField xdrULong (·.data0) (fun p v => { p with data0 := v }) <|
  xdrField xdrInt (·.data1) (fun p v => { p with data1 := v }) <|
  xdrField xdrULong (·.data2) (fun p v => { p with data2 := v }) <|
  xdrField (xdrPointer ⟨0, 0, 0, 0⟩ xdrPdsmXtraTimeInfo) (·.timeInfoPtr)
    (fun p v => { p with timeInfoPtr := v }) xdrDone

/-- `struct xtra_validity_params` -/
structure XtraValidityParams where
  data0 : Word
  data1 : Word
  data2 : Word
deriving DecidableEq

def xdrXtraValidityArgs : XdrProc XtraValidityParams :=
  xdrField xdrULong (·.data0) (fun p v => { p with data0 := v }) <|
  xdrField xdrInt (·.data1) (fun p v => { p with data1 := v }) <|
  xdrField xdrULong (·.data2) (fun p v => { p with data2 := v }) xdrDone

/-- `struct xtra_auto_params` -/
structure XtraAutoParams where
  data0 : Word
  data1 : Word
  data2 : Word
  boolean : Byte
  interval : BitVec 16
deriving DecidableEq

def xdrXtraAutoArgs : XdrProc XtraAutoParams :=
  xdrField xdrULong (·.data0) (fun p v => { p with data0 := v }) <|
  xdrField xdrInt (·.data1) (fun p v => { p with data1 := v }) <|
  xdrField xdrULong (·.data2) (fun p v => { p with data2 := v }) <|
  xdrField xdrUChar (·.boolean) (fun p v => { p with boolean := v }) <|
  xdrField xdrUShort (·.interval) (fun p v => { p with interval := v }) xdrDone

/-! ## The wire formats -/

def xtraDataFormat : Codec :=
  .pair .uLong <| .pair .int <| .pair .uLong <| .pair .uLong <| .pair (.bytes (~~~0)) <|
    .pair .uChar <| .pair .uChar .uLong

def XtraDataParams.wire (p : XtraDataParams) : xtraDataFormat.Obj :=
  (p.data0, p.data1, p.data2, p.partLen, ⟨p.xtraDataPtr, p.partLen⟩, p.part, p.totalParts, p.data3)

theorem xdrXtraDataArgs_encodes {p : XtraDataParams}
    (hwf : (Codec.bytes (~~~0)).Wf ⟨p.xtraDataPtr, p.partLen⟩) :
    Encodes xdrXtraDataArgs p xtraDataFormat p.wire := by
  refine ((((((((encodes_self .uLong _).last _).field .uChar ?_ ?_).field .uChar ?_ ?_).field
    (.bytes (~~~0)) ?_ ?_).field .uLong ?_ ?_).field .uLong ?_ ?_).field .int ?_ ?_).field
    .uLong ?_ ?_
  all_goals first | rfl | exact hwf | trivial

def xtraTimeInfoFormat : Codec := .pair .uQuadT <| .pair .uLong <| .pair .uChar .uChar

def PdsmXtraTimeInfo.wire (p : PdsmXtraTimeInfo) : xtraTimeInfoFormat.Obj :=
  (p.timeUtc, p.uncertainty, firstByte p.refToUtcTime, firstByte p.forceFlag)

theorem xdrPdsmXtraTimeInfo_encodes (p : PdsmXtraTimeInfo) :
    Encodes xdrPdsmXtraTimeInfo p xtraTimeInfoFormat p.wire := by
  refine ((((encodes_self .uChar _).last _).field .uChar ?_ ?_).field .uLong ?_ ?_).field
    .uQuadT ?_ ?_
  all_goals first | rfl | trivial | skip
  rw [setFirstByte_firstByte]

def xtraTimeFormat : Codec :=
  .pair .uLong <| .pair .int <| .pair .uLong <| .pointer xtraTimeInfoFormat

theorem xdrXtraTimeArgs_encodes (data0 data1 data2 : Word) (info : PdsmXtraTimeInfo) :
    Encodes xdrXtraTimeArgs ⟨data0, data1, data2, some info⟩ xtraTimeFormat
      (data0, data1, data2, some info.wire) := by
  let p : XtraTimeParams := ⟨data0, data1, data2, some info⟩
  have hptr : Encodes (xdrPointer ⟨0, 0, 0, 0⟩ xdrPdsmXtraTimeInfo) p.timeInfoPtr
      (.pointer xtraTimeInfoFormat) (some info.wire : Option xtraTimeInfoFormat.Obj) :=
    (xdrPdsmXtraTimeInfo_encodes info).pointer ⟨0, 0, 0, 0⟩
  have hlast : Encodes (xdrField (xdrPointer ⟨0, 0, 0, 0⟩ xdrPdsmXtraTimeInfo)
      XtraTimeParams.timeInfoPtr (fun p v => { p with timeInfoPtr := v }) xdrDone) p
      (.pointer xtraTimeInfoFormat) (some info.wire : Option xtraTimeInfoFormat.Obj) :=
    hptr.last _
  refine ((hlast.field .uLong ?_ ?_).field .int ?_ ?_).field .uLong ?_ ?_
  all_goals first | rfl | trivial

def xtraValidityFormat : Codec := .pair .uLong <| .pair .int .uLong

theorem xdrXtraValidityArgs_encodes (p : XtraValidityParams) :
    Encodes xdrXtraValidityArgs p xtraValidityFormat (p.data0, p.data1, p.data2) := by
  refine (((encodes_self .uLong _).last _).field .int ?_ ?_).field .uLong ?_ ?_
  all_goals first | rfl | trivial

def xtraAutoFormat : Codec := .pair .uLong <| .pair .int <| .pair .uLong <| .pair .uChar .uShort

theorem xdrXtraAutoArgs_encodes (p : XtraAutoParams) :
    Encodes xdrXtraAutoArgs p xtraAutoFormat
      (p.data0, p.data1, p.data2, p.boolean, p.interval) := by
  refine (((((encodes_self .uShort _).last _).field .uChar ?_ ?_).field .uLong ?_ ?_).field .int ?_
    ?_).field .uLong ?_ ?_
  all_goals first | rfl | trivial

/-- `xdr_args` sends all words when there is room for them. -/
theorem xdrArgs_words (par : List Word) {x : Xdr} (h : x.outNext + 4 * par.length ≤ 2048) :
    xdrArgs x par = (true, x.emit (wordsBytes par), par) := by
  suffices hfold : par.foldl (fun clnt val => (xdrStdSendUint32 clnt val).2) x
      = x.emit (wordsBytes par) by rw [xdrArgs, hfold]
  induction par generalizing x with
  | nil => exact (Xdr.emit_nil x).symm
  | cons val par ih =>
      rw [List.length_cons] at h
      push_cast at h
      rw [List.foldl_cons, xdrStdSendUint32_eq val (by omega), ih (by
        rw [Xdr.emit_outNext, Mem.length_wordBytes]; push_cast; omega), Xdr.emit_emit,
        wordsBytes_cons]

/-! ## Requests -/

inductive PdsmArgs where
  | words (par : List Word)
  | xtraData (p : XtraDataParams)
  | xtraTime (data0 data1 data2 : Word) (info : PdsmXtraTimeInfo)
  | xtraValidity (p : XtraValidityParams)
  | xtraAuto (p : XtraAutoParams)
deriving DecidableEq

structure PdsmRequest where
  proc : Word
  args : PdsmArgs
deriving DecidableEq

/-- `clnt_call` up to `XDR_MSG_SEND`. -/
def PdsmRequest.start (clnt : Xdr) : PdsmRequest → Bool × Xdr
  | ⟨proc, .words par⟩ => clntCallStart clnt proc xdrArgs par
  | ⟨proc, .xtraData p⟩ => clntCallStart clnt proc xdrXtraDataArgs p
  | ⟨proc, .xtraTime data0 data1 data2 info⟩ =>
      clntCallStart clnt proc xdrXtraTimeArgs ⟨data0, data1, data2, some info⟩
  | ⟨proc, .xtraValidity p⟩ => clntCallStart clnt proc xdrXtraValidityArgs p
  | ⟨proc, .xtraAuto p⟩ => clntCallStart clnt proc xdrXtraAutoArgs p

/-- The call that every request makes; `res` is the variable on the stack. -/
def PdsmRequest.call (rWrite : List Byte → Int) (wait : Xdr → Option Xdr) (clnt : Xdr)
    (res : Word) :
    PdsmRequest → Option (ClntStat × Xdr × Word)
  | ⟨proc, .words par⟩ => clntCall rWrite wait clnt proc xdrArgs par xdrResultInt res
  | ⟨proc, .xtraData p⟩ => clntCall rWrite wait clnt proc xdrXtraDataArgs p xdrResultInt res
  | ⟨proc, .xtraTime data0 data1 data2 info⟩ =>
      clntCall rWrite wait clnt proc xdrXtraTimeArgs ⟨data0, data1, data2, some info⟩
        xdrResultInt res
  | ⟨proc, .xtraValidity p⟩ => clntCall rWrite wait clnt proc xdrXtraValidityArgs p xdrResultInt res
  | ⟨proc, .xtraAuto p⟩ => clntCall rWrite wait clnt proc xdrXtraAutoArgs p xdrResultInt res

/-- The arguments as values of the wire format. -/
def PdsmArgs.value : PdsmArgs → XdrValue
  | .words par => ⟨wordsCodec par.length, par⟩
  | .xtraData p => ⟨xtraDataFormat, p.wire⟩
  | .xtraTime data0 data1 data2 info => ⟨xtraTimeFormat, (data0, data1, data2, some info.wire)⟩
  | .xtraValidity p => ⟨xtraValidityFormat, (p.data0, p.data1, p.data2)⟩
  | .xtraAuto p => ⟨xtraAutoFormat, (p.data0, p.data1, p.data2, p.boolean, p.interval)⟩

/-- The arguments are C objects that fit into one message. -/
def PdsmArgs.Ok : PdsmArgs → Prop
  | .words par => par.length ≤ 502
  | .xtraData p =>
      ∃ bs, p.xtraDataPtr = some bs ∧ bs.length = p.partLen.toNat ∧ p.partLen.toNat ≤ 1976
  | _ => True

theorem PdsmRequest.call_eq (rWrite : List Byte → Int) (wait : Xdr → Option Xdr) (clnt : Xdr)
    (res : Word) (r : PdsmRequest) :
    r.call rWrite wait clnt res
      = if !(r.start clnt).1 then some (.cantEncodeArgs, (r.start clnt).2, res)
        else if !xdrStdMsgSend rWrite (r.start clnt).2 then some (.cantSend, (r.start clnt).2, res)
        else (wait (r.start clnt).2).map fun xdr => clntCallFinish xdr xdrResultInt res := by
  obtain ⟨proc, args⟩ := r
  cases args <;> rfl

/-- The call encodes a value of the wire format that fits into one message. -/
structure PdsmArgs.Encoded (a : PdsmArgs) : Prop where
  wf : a.value.1.Wf a.value.2
  fits : a.value.1.Fits a.value.2 40
  start (clnt : Xdr) (proc : Word) :
    PdsmRequest.start clnt ⟨proc, a⟩ = clntCallStart clnt proc a.value.1.proc a.value.2

theorem PdsmArgs.Ok.encoded {a : PdsmArgs} (h : a.Ok) : a.Encoded := by
  cases a with
  | words par =>
      have hroom : (40 : Int) + 4 * par.length ≤ 2048 := by
        have hlen : par.length ≤ 502 := h
        omega
      refine ⟨wordsCodec_wf (by omega), wordsCodec_fits (by decide) hroom, fun clnt proc => ?_⟩
      have hnext : (clnt.callStart proc).outNext = 40 := rfl
      have hargs := xdrArgs_words par (hnext ▸ hroom)
      have hwords := wordsCodec_proc par (x := clnt.callStart proc) rfl (hnext ▸ by decide)
        (hnext ▸ hroom)
      refine (clntCallStart_eq clnt proc xdrArgs par).trans (Eq.trans ?_
        (clntCallStart_eq clnt proc (wordsCodec par.length).proc par).symm)
      rw [hargs, hwords]
  | xtraData p =>
      obtain ⟨bs, hptr, hlen, hroom⟩ := h
      have hwf : (Codec.bytes (~~~0)).Wf ⟨p.xtraDataPtr, p.partLen⟩ :=
        ⟨by rw [Counted.Matches, Counted.items, hptr]; exact hlen,
          Nat.lt_of_le_of_lt hroom (by decide)⟩
      have hmax : p.partLen ≤ ~~~0 := by
        rw [BitVec.le_def, BitVec.toNat_not]
        have hlt := p.partLen.isLt
        have hzero : (0 : Word).toNat = 0 := rfl
        omega
      have hbytes := takes_bytes hlen (by omega) hmax
      rw [← hptr] at hbytes
      have htakes := (takes_uLong p.data0).pair trivial <| (takes_int p.data1).pair trivial <|
        (takes_uLong p.data2).pair trivial <| (takes_uLong p.partLen).pair trivial <|
        hbytes.pair hwf <| (takes_uChar p.part).pair trivial <|
        (takes_uChar p.totalParts).pair trivial (takes_uLong p.data3)
      refine ⟨⟨trivial, trivial, trivial, trivial, hwf, trivial, trivial, trivial⟩,
        htakes.fits (by decide) (by push_cast; omega), fun clnt proc => ?_⟩
      exact (xdrXtraDataArgs_encodes hwf).clntCallStart clnt proc
  | xtraTime data0 data1 data2 info =>
      have hinfo := (takes_uQuadT info.timeUtc).pair trivial <|
        (takes_uLong info.uncertainty).pair trivial <|
        (takes_uChar (firstByte info.refToUtcTime)).pair trivial
          (takes_uChar (firstByte info.forceFlag))
      have htakes := (takes_uLong data0).pair trivial <| (takes_int data1).pair trivial <|
        (takes_uLong data2).pair trivial hinfo.pointer
      refine ⟨⟨trivial, trivial, trivial, ?_⟩, htakes.fits (by decide) (by decide),
        fun clnt proc => (xdrXtraTimeArgs_encodes data0 data1 data2 info).clntCallStart clnt proc⟩
      intro v _
      exact ⟨trivial, trivial, trivial, trivial⟩
  | xtraValidity p =>
      have htakes := (takes_uLong p.data0).pair trivial <| (takes_int p.data1).pair trivial
        (takes_uLong p.data2)
      exact ⟨⟨trivial, trivial, trivial⟩, htakes.fits (by decide) (by decide),
        fun clnt proc => (xdrXtraValidityArgs_encodes p).clntCallStart clnt proc⟩
  | xtraAuto p =>
      have htakes := (takes_uLong p.data0).pair trivial <| (takes_int p.data1).pair trivial <|
        (takes_uLong p.data2).pair trivial <| (takes_uChar p.boolean).pair trivial
          (takes_uShort p.interval)
      exact ⟨⟨trivial, trivial, trivial, trivial, trivial⟩, htakes.fits (by decide) (by decide),
        fun clnt proc => (xdrXtraAutoArgs_encodes p).clntCallStart clnt proc⟩

/-! ## The modem -/

/-- What the service function of the modem decoded, and what it sent. -/
structure PdsmServed where
  req : SvcReq
  value : XdrValue
  reply : Option (List Byte)

/-- A service function that knows the wire format of each procedure. -/
def pdsmService (format : Word → Option Codec) (answer : SvcReq → XdrValue → Word) (req : SvcReq)
    (serv : RegisteredServer) : RegisteredServer × Option PdsmServed :=
  match format req.rqProc with
  | none => ((svcerrNoproc serv).1, none)
  | some c =>
      let r := serve c .uLong (fun req w => answer req ⟨c, w⟩) req serv
      (r.1, some ⟨r.2.req, ⟨c, r.2.args⟩, r.2.reply⟩)

/-- The handle of a client and the entry of the server it calls. -/
structure PdsmLink where
  clnt : Xdr
  svc : RegisteredServer

structure PdsmLink.Matches (l : PdsmLink) (prog vers : Word) : Prop where
  clntProg : l.clnt.xProg = prog
  clntVers : l.clnt.xVers = vers
  svcProg : l.svc.xProg = prog
  svcVers : l.svc.xdr.xVers = vers

/-- One request over the link, with the service function of the modem between
the message and the reply: the result, the link and what the modem was asked.
`none` is `exit(-1)`, or waiting for ever. -/
def PdsmLink.request (getpid : Int) (format : Word → Option Codec)
    (answer : SvcReq → XdrValue → Word) (l : PdsmLink) (r : PdsmRequest) :
    Option (Word × PdsmLink × SvcReq × XdrValue) := do
  let served ← svcContext getpid (pdsmService format answer) l.svc
    (some (r.start l.clnt).2.message)
  let got ← served.2.join
  let res ← r.call (fun bs => bs.length) (fun x => got.reply.bind (rxReply x)) l.clnt (-1)
  if res.1 ≠ .success then none
  else some (res.2.2, ⟨res.2.1, served.1⟩, got.req, got.value)

/-! ## What an exchange leaves alone -/

theorem xdrRecvAuth_coded (x : Xdr) : x.Coded (xdrRecvAuth x).2.1 := by
  simp only [xdrRecvAuth]
  have hflavor := xdrStdRecvUint32_coded x 0
  have hlen := hflavor.trans (xdrStdRecvUint32_coded _ 0)
  split
  · exact hflavor
  · split
    · exact hlen
    · split
      · refine hlen.trans ?_
        rw [xdrStdSkipBytes]
        split <;> exact ⟨_, _, _, _, rfl⟩
      · exact hlen

/-- One more word, and what follows if it is there. -/
theorem Xdr.Coded.recv {x y : Xdr} (h : x.Coded y) (v : Word) :
    x.Coded (xdrStdRecvUint32 y v).2.1 :=
  h.trans (xdrStdRecvUint32_coded y v)

theorem xdrRecvAcceptedReplyHeader_coded (x : Xdr) : x.Coded (xdrRecvAcceptedReplyHeader x).1 := by
  simp only [xdrRecvAcceptedReplyHeader]
  have hauth := xdrRecvAuth_coded x
  split
  · exact hauth
  · split
    · exact hauth.recv 0
    · split
      · split
        · exact (hauth.recv 0).recv 0
        · split <;> exact ((hauth.recv 0).recv 0).recv 0
      · exact hauth.recv 0
      · exact hauth.recv 0

theorem xdrRecvDeniedReply_coded (x : Xdr) : x.Coded (xdrRecvDeniedReply x).1 := by
  simp only [xdrRecvDeniedReply]
  have hstat := (Xdr.Coded.refl x).recv 0
  split
  · exact hstat
  · split
    · split
      · exact hstat.recv 0
      · split <;> exact (hstat.recv 0).recv 0
    · split
      · split <;> exact hstat.recv 0
      · exact hstat

theorem xdrRecvReplyHeader_coded (x : Xdr) : x.Coded (xdrRecvReplyHeader x).1 := by
  simp only [xdrRecvReplyHeader]
  have hstat := (Xdr.Coded.refl x).recv 0
  split
  · exact hstat
  · split
    · exact hstat.trans (xdrRecvAcceptedReplyHeader_coded _)
    · split
      · exact hstat.trans (xdrRecvDeniedReply_coded _)
      · exact hstat

theorem clntCallFinish_coded {β : Type} {xdrResults : XdrProc β} (h : ProcCoded xdrResults)
    (x : Xdr)
    (rets : β) : x.Coded (clntCallFinish x xdrResults rets).2.1 := by
  have hheader := xdrRecvReplyHeader_coded x
  rw [clntCallFinish]
  split
  · exact .refl x
  · rcases hrecv : xdrRecvReplyHeader x with ⟨y, hdr⟩
    rw [hrecv] at hheader
    rcases hdr with _ | ar | dr
    · exact hheader
    · simp only
      split
      · exact hheader
      · exact hheader.trans ((Xdr.coded_xOp y .decode).trans (h _ rets))
    · exact hheader

/-- The old value does not matter where a word is read. -/
theorem xdrStdRecvUint32_of_true {x : Xdr} {v : Word} (w : Word)
    (h : (xdrStdRecvUint32 x v).1 = true) : xdrStdRecvUint32 x w = xdrStdRecvUint32 x v := by
  unfold xdrStdRecvUint32 at h ⊢
  split at h
  · cases h
  · rename_i henough
    rw [if_neg henough, if_neg henough]

/-- A result that `xdr_u_long` decodes is the one `xdr_result_int` gets. -/
theorem clntCallFinish_resultInt {x : Xdr} (res : Word)
    (h : (clntCallFinish x xdrULong 0).1 = .success) :
    clntCallFinish x xdrResultInt res = clntCallFinish x xdrULong 0 := by
  unfold clntCallFinish at h ⊢
  split at h
  · cases h
  · rename_i hxid
    rw [if_neg hxid]
    rcases hrecv : xdrRecvReplyHeader x with ⟨y, hdr⟩
    rw [hrecv] at h
    rcases hdr with _ | ar | dr
    · cases h
    · simp only at h ⊢
      split at h
      · exact absurd h ar.stat.clntStat_ne
      · rename_i hstat
        rw [if_neg hstat]
        generalize hz : { y with xOp := .decode } = z at h ⊢
        have hop : z.xOp = .decode := by rw [← hz]
        simp only [xdrULong, xdrWord, xdrResultInt, hop, if_true] at h ⊢
        split at h
        · rename_i hok
          rw [xdrStdRecvUint32_of_true res hok, if_pos hok, if_neg hxid, if_neg hstat]
        · cases h
    · exact absurd h dr.clntStat_ne

/-- The service function leaves the numbers of its entry alone. -/
theorem serve_numbers (ca cr : Codec) (results : SvcReq → ca.Obj → cr.Obj) (req : SvcReq)
    (serv : RegisteredServer) :
    (serve ca cr results req serv).1.xProg = serv.xProg
      ∧ (serve ca cr results req serv).1.xdr.xVers = serv.xdr.xVers := by
  have hget := serviceCall_coded serv (.getargs ca ca.fresh)
  have hprog := serviceCall_xProg serv (.getargs ca ca.fresh)
  have hafter (a : Answer) :
      (serviceCall (serviceCall serv (.getargs ca ca.fresh)) (.answer a)).xProg = serv.xProg
        ∧ (serviceCall (serviceCall serv (.getargs ca ca.fresh)) (.answer a)).xdr.xVers
          = serv.xdr.xVers := by
    obtain ⟨_, _, _, _, hcoded⟩ := hget.trans (serviceCall_coded _ (.answer a))
    exact ⟨(serviceCall_xProg _ _).trans hprog, by rw [hcoded]⟩
  rw [serve]
  split
  · exact hafter .decode
  · exact hafter (.sendreply cr (results req (svcGetargs serv ca.proc ca.fresh).2.2))

/-! ## One request -/

section

variable {getpid : Int} {format : Word → Option Codec} (answer : SvcReq → XdrValue → Word)
  {prog vers : Word}

/-- **A request arrives as it was made.** The modem is asked for the procedure
with the arguments of the request, its answer is the result of the request, and
the link is ready for the next one. -/
theorem request_served (hpid : getpid ≠ 0) {l : PdsmLink} (hl : l.Matches prog vers)
    {r : PdsmRequest} (hok : r.args.Ok) (hformat : format r.proc = some r.args.value.1) :
    ∃ v l', SameValue v r.args.value
      ∧ l.request getpid format answer r
        = some (answer ⟨prog, vers, r.proc⟩ v, l', ⟨prog, vers, r.proc⟩, v)
      ∧ l'.Matches prog vers := by
  obtain ⟨hcprog, hcvers, hsprog, hsvers⟩ := hl
  obtain ⟨hwf, hfits, hstart⟩ := hok.encoded
  obtain ⟨bs, hcall, hmsg, hlen, hdec⟩ := clntCallStart_message l.clnt r.proc hwf hfits
  rw [← hstart] at hcall
  change _ = callHeader (l.clnt.xid + 1) l.clnt.xProg l.clnt.xVers r.proc ++ bs at hmsg
  rw [hcprog, hcvers] at hmsg
  generalize hx : (l.clnt.callStart r.proc).emit bs = x at hcall hmsg
  -- the modem
  obtain ⟨w, rs, hsame, hrs, hrdec, hserve⟩ := @serve_called _ .uLong _ _ ⟨prog, vers, r.proc⟩
    (fun req w => answer req ⟨r.args.value.1, w⟩) l.svc _ (l.clnt.xid + 1) prog vers r.proc hpid
    hlen hdec (fun _ _ => trivial) (fun _ _ => (takes_uLong _).fits (by decide) (by decide))
  have hctx := svcContext_call (pdsmService format answer) getpid (l.clnt.xid + 1) r.proc hsprog
    hsvers hlen
  rw [← hmsg] at hctx hserve
  have hservice : pdsmService format answer ⟨prog, vers, r.proc⟩ (l.svc.called getpid x.message)
      = ((serve r.args.value.1 .uLong (fun req w => answer req ⟨r.args.value.1, w⟩)
            ⟨prog, vers, r.proc⟩ (l.svc.called getpid x.message)).1,
          some ⟨⟨prog, vers, r.proc⟩, ⟨r.args.value.1, w⟩,
            some (replyHeader (l.clnt.xid + 1) ++ rs)⟩) := by
    simp only [pdsmService, hformat, hserve]
  obtain ⟨hnprog, hnvers⟩ := serve_numbers r.args.value.1 .uLong
    (fun req w => answer req ⟨r.args.value.1, w⟩) ⟨prog, vers, r.proc⟩
    (l.svc.called getpid x.message)
  generalize (serve r.args.value.1 .uLong (fun req w => answer req ⟨r.args.value.1, w⟩)
    ⟨prog, vers, r.proc⟩ (l.svc.called getpid x.message)).1 = svc' at hservice hnprog hnvers
  rw [hservice] at hctx
  -- the caller
  have hxid : x.outMsg.getWord 0 = l.clnt.xid + 1 := getWord_of_message hmsg
  have hsend : xdrStdMsgSend (fun bs => bs.length) x = true := by
    have hnonneg : 0 ≤ x.outNext := by
      rw [← hx, Xdr.emit_outNext]
      exact Int.add_nonneg (l.clnt.callStart_outReady r.proc).nonneg (by omega)
    rw [xdrStdMsgSend, decide_eq_true_eq, Xdr.message, Mem.length_slice]
    omega
  obtain ⟨hrx, -⟩ := rxReply_eq x (l.clnt.xid + 1) hrs
  obtain ⟨hstat, hres⟩ :
      (clntCallFinish (x.received (replyHeader (x.outMsg.getWord 0) ++ rs)) xdrULong 0).1 = .success
        ∧ (clntCallFinish (x.received (replyHeader (x.outMsg.getWord 0) ++ rs)) xdrULong 0).2.2
          = answer ⟨prog, vers, r.proc⟩ ⟨r.args.value.1, w⟩ := clntCallFinish_eq x hrs hrdec
  rw [hxid] at hstat hres
  have hfinish := clntCallFinish_resultInt (-1) hstat
  have hcoded := clntCallFinish_coded (show ProcCoded xdrULong from procCoded_uInt)
    (x.received (replyHeader (l.clnt.xid + 1) ++ rs)) 0
  generalize clntCallFinish (x.received (replyHeader (l.clnt.xid + 1) ++ rs)) xdrULong 0 = fin
    at hstat hres hfinish hcoded
  refine ⟨⟨r.args.value.1, w⟩, ⟨fin.2.1, { svc' with active := 0 }⟩, .mk _ hsame, ?_, ?_⟩
  · have hcall' : r.start l.clnt = (true, x) := hcall
    simp only [PdsmLink.request, hcall', hctx, PdsmRequest.call_eq, hsend, Bool.not_true,
      Bool.false_eq_true, if_false, hrx, hfinish, Option.bind_eq_bind, Option.bind_some,
      Option.join_some, Option.map_some, hstat, ne_eq, not_true_eq_false, hres]
  · obtain ⟨_, _, _, _, hcoded⟩ := hcoded
    refine ⟨?_, ?_, hnprog.trans hsprog, hnvers.trans hsvers⟩
    · simp only [hcoded, ← hx]
      exact hcprog
    · simp only [hcoded, ← hx]
      exact hcvers

end

/-! ## Programs -/

/-- The two clients of the library. -/
inductive PdsmClient where
  | pdsm
  | atl
deriving DecidableEq, Repr

def PdsmClient.prog : PdsmClient → Word
  | pdsm => 0x3000005B
  | atl => 0x3000001D

def pdsmVers : Word := 0x00010001

abbrev PdsmQuery := PdsmClient × PdsmRequest

def PdsmQuery.svcReq (q : PdsmQuery) : SvcReq := ⟨q.1.prog, pdsmVers, q.2.proc⟩

/-- The process ID of the modem, the formats it knows, and its answers, which
may depend on all that has arrived before. -/
structure Modem where
  getpid : Int
  format : PdsmClient → Word → Option Codec
  answer : List (SvcReq × XdrValue) → SvcReq → XdrValue → Word

/-- The links of the clients, and what has arrived at the modem. -/
structure PdsmWire where
  link : PdsmClient → PdsmLink
  arrived : List (SvcReq × XdrValue)

def PdsmWire.Matches (w : PdsmWire) : Prop := ∀ c, (w.link c).Matches c.prog pdsmVers

def PdsmWire.ask (m : Modem) (w : PdsmWire) (q : PdsmQuery) : Option (Word × PdsmWire) :=
  ((w.link q.1).request m.getpid (m.format q.1) (m.answer w.arrived) q.2).map fun r =>
    (r.1, ⟨Function.update w.link q.1 r.2.1, w.arrived ++ [r.2.2]⟩)

/-- A query that fits into a message of a format the modem knows. -/
structure Modem.Knows (m : Modem) (q : PdsmQuery) : Prop where
  ok : q.2.args.Ok
  format : m.format q.1 q.2.proc = some q.2.args.value.1

/-- The query arrives as it was made and gets the answer of the modem. -/
def Modem.Serves (m : Modem) (w : PdsmWire) (e : PdsmQuery × Word) (w' : PdsmWire) : Prop :=
  ∃ v, SameValue v e.1.2.args.value ∧ e.2 = m.answer w.arrived e.1.svcReq v
    ∧ w'.arrived = w.arrived ++ [(e.1.svcReq, v)]

theorem ask_served {m : Modem} (hpid : m.getpid ≠ 0) (w : PdsmWire) (q : PdsmQuery) (hw : w.Matches)
    (hq : m.Knows q) :
    ∃ r w', w.ask m q = some (r, w') ∧ w'.Matches ∧ m.Serves w (q, r) w' := by
  obtain ⟨v, l', hsame, hrequest, hl'⟩ :=
    request_served (m.answer w.arrived) hpid (hw q.1) hq.ok hq.format
  refine ⟨m.answer w.arrived q.svcReq v,
    ⟨Function.update w.link q.1 l', w.arrived ++ [(q.svcReq, v)]⟩, ?_, ?_, v, hsame, rfl, rfl⟩
  · rw [PdsmWire.ask, hrequest]
    rfl
  · intro c
    by_cases hc : c = q.1
    · subst hc
      simp only [Function.update_self]
      exact hl'
    · simp only [Function.update_of_ne hc]
      exact hw c

/-- What arrived, question by question. -/
def Modem.Answers (m : Modem) : List (SvcReq × XdrValue) → List (PdsmQuery × Word) →
    List (SvcReq × XdrValue) → Prop
  | _, [], ps => ps = []
  | before, e :: t, ps =>
      ∃ v ps', ps = (e.1.svcReq, v) :: ps' ∧ SameValue v e.1.2.args.value
        ∧ e.2 = m.answer before e.1.svcReq v ∧ m.Answers (before ++ [(e.1.svcReq, v)]) t ps'

theorem answers_of_path {m : Modem} {w w' : PdsmWire} {t : List (PdsmQuery × Word)}
    (h : Calls.Path m.Serves w t w') :
    ∃ ps, w'.arrived = w.arrived ++ ps ∧ m.Answers w.arrived t ps := by
  induction h with
  | refl w => exact ⟨[], (List.append_nil _).symm, rfl⟩
  | @step w w₁ w' e t hserves _ ih =>
      obtain ⟨v, hsame, hanswer, harrived⟩ := hserves
      obtain ⟨ps, hps, hanswers⟩ := ih
      rw [harrived] at hps hanswers
      exact ⟨(e.1.svcReq, v) :: ps, by rw [hps, List.append_assoc]; rfl,
        v, ps, rfl, hsame, hanswer, hanswers⟩

/-- **The wire is transparent.** Any program that makes requests of known formats
ends over the wire, and what it did is one of its traces, in which the modem was
asked exactly the program's requests, in their order, and gave the answers the
program got. -/
theorem program_served {α : Type} {m : Modem} (hpid : m.getpid ≠ 0) {p : Calls PdsmQuery Word α}
    (hp : p.All m.Knows) {w : PdsmWire} (hw : w.Matches) :
    ∃ t a w' ps, p.run (PdsmWire.ask m) w = some (a, w') ∧ p.Trace t a ∧ w'.Matches
      ∧ w'.arrived = w.arrived ++ ps ∧ m.Answers w.arrived t ps := by
  obtain ⟨t, a, w', hrun, htrace, hw', hpath⟩ :=
    Calls.run_trace (ask_served hpid) hp hw
  obtain ⟨ps, harrived, hanswers⟩ := answers_of_path hpath
  exact ⟨t, a, w', ps, hrun, htrace, hw', harrived, hanswers⟩

end HtcLeo
