import HtcLeo.CInt
import HtcLeo.Mem

/-!
# XDR handles and message data (`librpc/svc_clnt_common.c`)

An XDR handle holds an outgoing and an incoming message with a cursor in
each. The functions here are the entries of `xdr_std_xops`: they start,
read and send messages and move words and byte strings between a message
and the program. A failing function keeps what it has done so far, as
the C code does, so every one returns its status beside the handle.

Encoding is described by what it appends (`Xdr.emit`) and decoding by
what it consumes (`Xdr.Holds`, `Xdr.advance`). The two sides of a word
and of a byte string meet in the specifications at the end; everything
above this file is proved from them.
-/

namespace HtcLeo

inductive XdrOp where
  | encode
  | decode
  | free
deriving DecidableEq, Repr

inductive RpcMsgType where
  | call
  | reply
deriving DecidableEq, Repr

def RpcMsgType.code : RpcMsgType → Word
  | .call => 0
  | .reply => 1

/-- `oaBase` is the memory at the pointer. -/
structure OpaqueAuth where
  oaFlavor : Word
  oaBase : List Byte
  oaLength : Word
deriving DecidableEq

def authNone : Word := 0

/-- No credentials. -/
def OpaqueAuth.none : OpaqueAuth := ⟨authNone, [], 0⟩

def rpcrouterMsgsizeMax : Int := 2048

structure Xdr where
  xOp : XdrOp
  xProg : Word
  xVers : Word
  xProc : Word
  verf : OpaqueAuth
  xid : Word
  fd : Int
  isClient : Bool
  outMsg : Mem
  outNext : Int
  inMsg : Mem
  inNext : Int
  inLen : Int

/-! ## Messages -/

/-- `calloc`, then the descriptor and the kind. -/
def xdrInitCommon (fd : Int) (isClient : Bool) : Xdr where
  xOp := .encode
  xProg := 0
  xVers := 0
  xProc := 0
  verf := .none
  xid := 0
  fd := fd
  isClient := isClient
  outMsg := fun _ => 0
  outNext := 0
  inMsg := fun _ => 0
  inNext := 0
  inLen := 0

/-- `xdr_init_common` with the answer of `r_open`; `none` is `NULL`. -/
def xdrOpen (opened : Int) (isClient : Bool) : Option Xdr :=
  if opened < 0 then none else some (xdrInitCommon opened isClient)

/-- `xdr->xid = xdr->xid`: the clone keeps the zero of `calloc`. -/
def xdrClone (other : Xdr) (fd : Int) : Xdr :=
  let xdr := xdrInitCommon fd other.isClient
  { xdr with xid := xdr.xid, xProg := other.xProg, xVers := other.xVers }

def xdrStdMsgStart (xdr : Xdr) (type : RpcMsgType) : Bool × Xdr :=
  let xdr := if type = .call then { xdr with xid := xdr.xid + 1 } else xdr
  (true, { xdr with
    outNext := 8
    outMsg := (xdr.outMsg.putWord 0 xdr.xid).putWord 4 type.code })

/-- The message handed to `r_write`. -/
def Xdr.message (xdr : Xdr) : List Byte := xdr.outMsg.slice 0 xdr.outNext.toNat

/-- `rWrite` is the number of bytes written. -/
def xdrStdMsgSend (rWrite : List Byte → Int) (xdr : Xdr) : Bool :=
  rWrite xdr.message = xdr.outNext

/-- `packet` is what the driver has for the descriptor, of which a read takes
at most a full buffer; `none` is an error. -/
def xdrStdRead (xdr : Xdr) (packet : Option (List Byte)) : Bool × Xdr :=
  match packet with
  | none => (false, { xdr with inLen := -1 })
  | some packet =>
      let msg := packet.take rpcrouterMsgsizeMax.toNat
      let xdr := { xdr with inMsg := xdr.inMsg.write 0 msg }
      if msg.length < 8 then (false, { xdr with inLen := -1 })
      else (true, { xdr with inLen := msg.length, inNext := 8 })

/-! ## Message data -/

def xdrStdSendUint32 (xdr : Xdr) (value : Word) : Bool × Xdr :=
  if xdr.outNext ≥ rpcrouterMsgsizeMax - 3 then (false, xdr)
  else
    (true, { xdr with
      outMsg := xdr.outMsg.putWord xdr.outNext value, outNext := xdr.outNext + 4 })

abbrev xdrStdSendInt32 (xdr : Xdr) (value : Word) : Bool × Xdr := xdrStdSendUint32 xdr value

/-- The sign is extended by the conversion to `uint32`. -/
def xdrStdSendInt16 (xdr : Xdr) (value : BitVec 16) : Bool × Xdr :=
  xdrStdSendUint32 xdr (value.signExtend 32)

def xdrStdSendUint16 (xdr : Xdr) (value : BitVec 16) : Bool × Xdr :=
  xdrStdSendUint32 xdr (value.setWidth 32)

def xdrStdSendInt8 (xdr : Xdr) (value : Byte) : Bool × Xdr :=
  xdrStdSendUint32 xdr (value.signExtend 32)

def xdrStdSendUint8 (xdr : Xdr) (value : Byte) : Bool × Xdr :=
  xdrStdSendUint32 xdr (value.setWidth 32)

/-- The zeros that fill a message of `n` bytes up to a whole word. -/
def padding (n : Int) : List Byte := List.replicate ((-n) % 4).toNat 0

/-- Append `bs` to the outgoing message. -/
def Xdr.emit (xdr : Xdr) (bs : List Byte) : Xdr :=
  { xdr with outMsg := xdr.outMsg.write xdr.outNext bs, outNext := xdr.outNext + bs.length }

/-- `buf` is the memory at the pointer; `out_next + len` is an unsigned sum. -/
def xdrStdSendBytes (xdr : Xdr) (buf : List Byte) (len : Word) : Bool × Xdr :=
  if ((BitVec.ofInt 32 xdr.outNext + len).toNat : Int) > rpcrouterMsgsizeMax then (false, xdr)
  else
    let xdr := xdr.emit (buf.take len.toNat)
    (true, xdr.emit (padding xdr.outNext))

/-- The old value stays when the read fails. -/
def xdrStdRecvUint32 (xdr : Xdr) (value : Word) : Bool × Xdr × Word :=
  if xdr.inNext + 4 > xdr.inLen then (false, xdr, value)
  else (true, { xdr with inNext := xdr.inNext + 4 }, xdr.inMsg.getWord xdr.inNext)

abbrev xdrStdRecvInt32 (xdr : Xdr) (value : Word) : Bool × Xdr × Word := xdrStdRecvUint32 xdr value

/-- `RECEIVE`: a word, truncated to the width of the variable. -/
def xdrStdReceive {w : Nat} (xdr : Xdr) (value : BitVec w) : Bool × Xdr × BitVec w :=
  let (ok, xdr, val) := xdrStdRecvUint32 xdr 0
  (ok, xdr, if ok then val.setWidth w else value)

def xdrStdRecvInt8 (xdr : Xdr) (value : Byte) : Bool × Xdr × Byte := xdrStdReceive xdr value
def xdrStdRecvUint8 (xdr : Xdr) (value : Byte) : Bool × Xdr × Byte := xdrStdReceive xdr value
def xdrStdRecvInt16 (xdr : Xdr) (value : BitVec 16) : Bool × Xdr × BitVec 16 :=
  xdrStdReceive xdr value
def xdrStdRecvUint16 (xdr : Xdr) (value : BitVec 16) : Bool × Xdr × BitVec 16 :=
  xdrStdReceive xdr value

/-- `(n + 3) & ~3` of an `int`. -/
def roundUp4 (n : Int) : Int := wrap32 (n + 3) - wrap32 (n + 3) % 4

/-- The check of `xdr_std_recv_bytes`: `in_next + (int)len > in_len`. -/
def recvBytesFails (xdr : Xdr) (len : Word) : Prop := wrap32 (xdr.inNext + len.toInt) > xdr.inLen

instance (xdr : Xdr) (len : Word) : Decidable (recvBytesFails xdr len) :=
  inferInstanceAs (Decidable (_ > _))

/-- The cursor after a successful `xdr_std_recv_bytes`. -/
def Xdr.skipBytes (xdr : Xdr) (len : Word) : Xdr :=
  { xdr with inNext := roundUp4 (wrap32 (xdr.inNext + len.toNat)) }

/-- `memcpy` into the front of the buffer. -/
def xdrStdRecvBytes (xdr : Xdr) (buf : List Byte) (len : Word) : Bool × Xdr × List Byte :=
  if recvBytesFails xdr len then (false, xdr, buf)
  else
    (true, xdr.skipBytes len, xdr.inMsg.slice xdr.inNext len.toNat ++ buf.drop len.toNat)

/-- With a null buffer nothing is copied. -/
def xdrStdSkipBytes (xdr : Xdr) (len : Word) : Bool × Xdr :=
  if recvBytesFails xdr len then (false, xdr) else (true, xdr.skipBytes len)

/-! ## Appending -/

/-- The outgoing cursor is at a word boundary inside the buffer. -/
structure Xdr.OutReady (xdr : Xdr) : Prop where
  nonneg : 0 ≤ xdr.outNext
  fits : xdr.outNext ≤ 2048
  aligned : xdr.outNext % 4 = 0

@[simp] theorem Xdr.emit_outNext (xdr : Xdr) (bs : List Byte) :
    (xdr.emit bs).outNext = xdr.outNext + bs.length := rfl

@[simp] theorem Xdr.emit_xOp (xdr : Xdr) (bs : List Byte) : (xdr.emit bs).xOp = xdr.xOp := rfl

@[simp] theorem Xdr.emit_nil (xdr : Xdr) : xdr.emit [] = xdr := by
  simp [Xdr.emit, Mem.write]

theorem Xdr.emit_emit (xdr : Xdr) (as bs : List Byte) :
    (xdr.emit as).emit bs = xdr.emit (as ++ bs) := by
  simp only [Xdr.emit, Mem.write_append, List.length_append, Nat.cast_add, Int.add_assoc]

theorem Xdr.emit_slice (xdr : Xdr) (bs : List Byte) :
    (xdr.emit bs).outMsg.slice xdr.outNext bs.length = bs :=
  Mem.slice_write ..

theorem Xdr.OutReady.emit {xdr : Xdr} (h : xdr.OutReady) {bs : List Byte}
    (hlen : bs.length % 4 = 0) (hfit : xdr.outNext + bs.length ≤ 2048) :
    (xdr.emit bs).OutReady where
  nonneg := by have := h.nonneg; simp only [Xdr.emit_outNext]; omega
  fits := hfit
  aligned := by have := h.aligned; simp only [Xdr.emit_outNext]; omega

theorem xdrStdMsgStart_outReady (xdr : Xdr) (type : RpcMsgType) :
    (xdrStdMsgStart xdr type).2.OutReady :=
  ⟨show (0 : Int) ≤ 8 by decide, show (8 : Int) ≤ 2048 by decide, rfl⟩

theorem xdrStdRead_eq (xdr : Xdr) {msg : List Byte} (hlo : 8 ≤ msg.length)
    (hhi : msg.length ≤ 2048) :
    xdrStdRead xdr (some msg)
      = (true, { xdr with inMsg := xdr.inMsg.write 0 msg, inLen := msg.length, inNext := 8 }) := by
  have htake : msg.take rpcrouterMsgsizeMax.toNat = msg := List.take_of_length_le hhi
  simp only [xdrStdRead, htake]
  rw [if_neg (by omega)]

/-! ## Consuming -/

/-- The incoming message has `bs` at the cursor, which is at a word boundary. -/
structure Xdr.Holds (xdr : Xdr) (bs : List Byte) : Prop where
  nonneg : 0 ≤ xdr.inNext
  aligned : xdr.inNext % 4 = 0
  enough : xdr.inNext + bs.length ≤ xdr.inLen
  int : xdr.inLen < 2 ^ 31
  bytes : xdr.inMsg.slice xdr.inNext bs.length = bs

/-- Move the incoming cursor by `n`. -/
def Xdr.advance (xdr : Xdr) (n : Nat) : Xdr := { xdr with inNext := xdr.inNext + n }

@[simp] theorem Xdr.advance_inNext (xdr : Xdr) (n : Nat) :
    (xdr.advance n).inNext = xdr.inNext + n := rfl

@[simp] theorem Xdr.advance_xOp (xdr : Xdr) (n : Nat) : (xdr.advance n).xOp = xdr.xOp := rfl

theorem Xdr.advance_advance (xdr : Xdr) (m n : Nat) :
    (xdr.advance m).advance n = xdr.advance (m + n) := by
  simp [Xdr.advance, Int.add_assoc]

theorem Xdr.Holds.left {xdr : Xdr} {as bs : List Byte} (h : xdr.Holds (as ++ bs)) :
    xdr.Holds as where
  nonneg := h.nonneg
  aligned := h.aligned
  enough := by have := h.enough; rw [List.length_append] at this; omega
  int := h.int
  bytes := by
    have hbytes := h.bytes
    rw [List.length_append, Mem.slice_add] at hbytes
    exact (List.append_inj hbytes (by simp)).1

theorem Xdr.Holds.right {xdr : Xdr} {as bs : List Byte} (h : xdr.Holds (as ++ bs))
    (hlen : as.length % 4 = 0) : (xdr.advance as.length).Holds bs where
  nonneg := by have := h.nonneg; simp only [Xdr.advance_inNext]; omega
  aligned := by have := h.aligned; simp only [Xdr.advance_inNext]; omega
  enough := by
    have := h.enough
    rw [List.length_append] at this
    simp only [Xdr.advance]
    omega
  int := h.int
  bytes := by
    have hbytes := h.bytes
    rw [List.length_append, Mem.slice_add] at hbytes
    exact (List.append_inj hbytes (by simp)).2

/-! ## Words -/

/-- A word that is sent is appended. -/
theorem xdrStdSendUint32_true {xdr xdr' : Xdr} {v : Word}
    (h : xdrStdSendUint32 xdr v = (true, xdr')) :
    xdr' = xdr.emit (Mem.wordBytes v) ∧ xdr.outNext ≤ 2044 := by
  unfold xdrStdSendUint32 at h
  split at h
  · cases h
  · rename_i hroom
    rw [rpcrouterMsgsizeMax] at hroom
    exact ⟨(Prod.mk.inj h).2.symm, by omega⟩

theorem xdrStdSendUint32_eq {xdr : Xdr} (v : Word) (h : xdr.outNext ≤ 2044) :
    xdrStdSendUint32 xdr v = (true, xdr.emit (Mem.wordBytes v)) := by
  rw [xdrStdSendUint32, if_neg (by rw [rpcrouterMsgsizeMax]; omega)]
  rfl

theorem xdrStdRecvUint32_eq {xdr : Xdr} {v : Word} (h : xdr.Holds (Mem.wordBytes v)) (old : Word) :
    xdrStdRecvUint32 xdr old = (true, xdr.advance 4, v) := by
  have henough := h.enough
  rw [Mem.length_wordBytes] at henough
  rw [xdrStdRecvUint32, if_neg (by omega), Mem.getWord_of_slice h.bytes]
  rfl

/-! ## Byte strings -/

/-- What `xdr_std_send_bytes` appends at a word boundary. -/
def paddedBytes (bs : List Byte) : List Byte := bs ++ padding bs.length

theorem length_paddedBytes_mod (bs : List Byte) : (paddedBytes bs).length % 4 = 0 := by
  simp only [paddedBytes, padding, List.length_append, List.length_replicate]
  omega

theorem xdrStdSendBytes_true {xdr xdr' : Xdr} {bs : List Byte} {len : Word} (hx : xdr.OutReady)
    (hlen : bs.length = len.toNat) (hint : len.toNat < 2 ^ 31)
    (h : xdrStdSendBytes xdr bs len = (true, xdr')) :
    xdr' = xdr.emit (paddedBytes bs) ∧ xdr.outNext + (paddedBytes bs).length ≤ 2048 := by
  obtain ⟨hlo, hhi, hal⟩ := hx
  have hsum : ((BitVec.ofInt 32 xdr.outNext + len).toNat : Int) = xdr.outNext + bs.length := by
    rw [BitVec.toNat_add, BitVec.toNat_ofInt]
    omega
  unfold xdrStdSendBytes at h
  rw [hsum, ← hlen, List.take_length] at h
  split at h
  · cases h
  · rename_i hroom
    rw [rpcrouterMsgsizeMax] at hroom
    have hpad : padding (xdr.emit bs).outNext = padding bs.length := by
      simp only [padding, Xdr.emit_outNext]
      congr 2
      omega
    have hx' := (Prod.mk.inj h).2
    simp only [hpad, Xdr.emit_emit] at hx'
    refine ⟨hx'.symm, ?_⟩
    simp only [paddedBytes, padding, List.length_append, List.length_replicate]
    omega

theorem xdrStdRecvBytes_eq {xdr : Xdr} {bs : List Byte} {len : Word}
    (h : xdr.Holds (paddedBytes bs)) (hlen : bs.length = len.toNat) (hint : len.toNat < 2 ^ 31)
    (old : List Byte) :
    xdrStdRecvBytes xdr old len
      = (true, xdr.advance (paddedBytes bs).length, bs ++ old.drop len.toNat) := by
  have htoInt : len.toInt = bs.length := by
    rw [BitVec.toInt_eq_toNat_of_lt (by omega), hlen]
  have hbytes : xdr.Holds bs := h.left
  obtain ⟨hlo, hal, henough, hin, -⟩ := h
  have hpadded : ((paddedBytes bs).length : Int) = bs.length + (-(bs.length : Int)) % 4 := by
    simp only [paddedBytes, padding, List.length_append, List.length_replicate]
    omega
  have hnext : roundUp4 (wrap32 (xdr.inNext + (bs.length : Int)))
      = xdr.inNext + (paddedBytes bs).length := by
    rw [roundUp4, wrap32_eq (x := xdr.inNext + (bs.length : Int)) (by omega) (by omega),
      wrap32_eq (by omega) (by omega)]
    omega
  rw [xdrStdRecvBytes, if_neg]
  · rw [Xdr.skipBytes, ← hlen, hnext, hbytes.bytes]
    rfl
  · rw [recvBytesFails, htoInt, wrap32_eq (by omega) (by omega)]
    omega

end HtcLeo
