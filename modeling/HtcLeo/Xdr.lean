import HtcLeo.XdrStd

/-!
# XDR procedures (`librpc/xdr.c`)

One procedure per C type does all three operations: it encodes the object
it points to, decodes into it, or frees what decoding has allocated,
depending on `x_op`. An object is modelled with the storage behind its
pointers, so a decoded object can be compared with the encoded one;
allocation succeeds.

Constructed types come from combinators that take the procedure of the
element type: fixed and counted arrays, optional objects, and the
generated procedures for structures, which call those of the fields in
turn.
-/

namespace HtcLeo

/-- The status, the handle and the object afterwards. -/
abbrev XdrProc (α : Type) := Xdr → α → Bool × Xdr × α

/-! ## Numbers -/

/-- The switch on `x_op` around sending and receiving a word. -/
def xdrWord (send : Xdr → Word → Bool × Xdr) (recv : Xdr → Word → Bool × Xdr × Word) :
    XdrProc Word := fun xdr v =>
  match xdr.xOp with
  | .encode => ((send xdr v).1, (send xdr v).2, v)
  | .decode => recv xdr v
  | .free => (true, xdr, v)

def xdrInt : XdrProc Word := xdrWord xdrStdSendInt32 xdrStdRecvInt32
def xdrUInt : XdrProc Word := xdrWord xdrStdSendUint32 xdrStdRecvUint32
/-- `long` has 32 bits on the target. -/
def xdrLong : XdrProc Word := xdrWord xdrStdSendInt32 xdrStdRecvInt32
def xdrULong : XdrProc Word := xdrWord xdrStdSendUint32 xdrStdRecvUint32
def xdrEnum : XdrProc Word := xdrWord xdrStdSendInt32 xdrStdRecvInt32

/-- A character goes through an `int` variable and is stored back. -/
def xdrThrough (proc : XdrProc Word) : XdrProc Byte := fun xdr c =>
  let r := proc xdr (c.setWidth 32)
  if r.1 then (true, r.2.1, r.2.2.setWidth 8) else (false, r.2.1, c)

/-- `char` is unsigned on the target. -/
def xdrChar : XdrProc Byte := xdrThrough xdrInt
def xdrUChar : XdrProc Byte := xdrThrough xdrUInt

/-- A short goes through a `long` variable, widened by `widen`. -/
def xdrShortWith (widen : BitVec 16 → Word) (send : Xdr → Word → Bool × Xdr)
    (recv : Xdr → Word → Bool × Xdr × Word) : XdrProc (BitVec 16) := fun xdr s =>
  match xdr.xOp with
  | .encode => ((send xdr (widen s)).1, (send xdr (widen s)).2, s)
  | .decode =>
      let r := recv xdr 0
      if r.1 then (true, r.2.1, r.2.2.setWidth 16) else (false, r.2.1, s)
  | .free => (true, xdr, s)

def xdrShort : XdrProc (BitVec 16) :=
  xdrShortWith (fun s => s.signExtend 32) xdrStdSendInt32 xdrStdRecvInt32
def xdrUShort : XdrProc (BitVec 16) :=
  xdrShortWith (fun s => s.setWidth 32) xdrStdSendUint32 xdrStdRecvUint32

/-- The high word first. -/
def xdrUHyper : XdrProc (BitVec 64) := fun xdr v =>
  match xdr.xOp with
  | .encode =>
      let r := xdrStdSendInt32 xdr (v.extractLsb' 32 32)
      if r.1 then
        let q := xdrStdSendInt32 r.2 (v.extractLsb' 0 32)
        (q.1, q.2, v)
      else (false, r.2, v)
  | .decode =>
      let r := xdrStdRecvInt32 xdr 0
      if r.1 then
        let q := xdrStdRecvInt32 r.2.1 0
        if q.1 then (true, q.2.1, r.2.2 ++ q.2.2) else (false, q.2.1, v)
      else (false, r.2.1, v)
  | .free => (true, xdr, v)

def xdrUQuadT : XdrProc (BitVec 64) := xdrUHyper

/-- `TRUE` or `FALSE` is sent for any value. -/
def xdrBool : XdrProc Word := fun xdr b =>
  match xdr.xOp with
  | .encode =>
      let r := xdrStdSendUint32 xdr (if b ≠ 0 then 1 else 0)
      (r.1, r.2, b)
  | .decode =>
      let r := xdrStdRecvUint32 xdr 0
      if r.1 then (true, r.2.1, if r.2.2 = 0 then 0 else 1) else (false, r.2.1, b)
  | .free => (true, xdr, b)

/-! ## Byte strings -/

/-- The object is the `cnt` bytes at the pointer. -/
def xdrOpaque (cnt : Word) : XdrProc (List Byte) := fun xdr cp =>
  if cnt = 0 then (true, xdr, cp)
  else
    match xdr.xOp with
    | .encode => ((xdrStdSendBytes xdr cp cnt).1, (xdrStdSendBytes xdr cp cnt).2, cp)
    | .decode => xdrStdRecvBytes xdr cp cnt
    | .free => (true, xdr, cp)

/-- A pointer with a separate size. -/
structure Counted (α : Type) where
  ptr : Option (List α)
  size : Word
deriving DecidableEq

/-- The objects at the pointer. -/
def Counted.items {α : Type} (a : Counted α) : List α := a.ptr.getD []

def xdrBytes (maxsize : Word) : XdrProc (Counted Byte) := fun xdr b =>
  match xdr.xOp with
  | .decode =>
      let r := xdrStdRecvUint32 xdr b.size
      let b := { b with size := r.2.2 }
      if !r.1 || decide (b.size > maxsize) then (false, r.2.1, b)
      else if b.size = 0 then (true, r.2.1, b)
      else
        let cp := b.ptr.getD (List.replicate b.size.toNat 0)
        let q := xdrStdRecvBytes r.2.1 cp b.size
        (q.1, q.2.1, { b with ptr := some q.2.2 })
  | .encode =>
      let r := xdrStdSendUint32 xdr b.size
      if r.1 && decide (b.size ≤ maxsize) then
        let q := xdrStdSendBytes r.2 b.items b.size
        (q.1, q.2, b)
      else (false, r.2, b)
  | .free => (true, xdr, { b with ptr := none })

/-- The characters before the terminating NUL. -/
def cString (storage : List Byte) : List Byte := storage.takeWhile (· ≠ 0)

/-- The object is the pointer to the characters. -/
def xdrString (maxsize : Word) : XdrProc (Option (List Byte)) := fun xdr cpp =>
  match xdr.xOp, cpp with
  | .free, none => (true, xdr, none)
  | .free, some cp =>
      if BitVec.ofNat 32 (cString cp).length > maxsize then (false, xdr, cpp) else (true, xdr, none)
  | .encode, none => (false, xdr, none)
  | .encode, some cp =>
      let size := BitVec.ofNat 32 (cString cp).length
      let r := xdrUInt xdr size
      if !r.1 || decide (size > maxsize) then (false, r.2.1, cpp)
      else
        let q := xdrOpaque size r.2.1 cp
        (q.1, q.2.1, some q.2.2)
  | .decode, cpp =>
      let r := xdrUInt xdr 0
      let size := r.2.2
      if !r.1 || decide (size > maxsize) then (false, r.2.1, cpp)
      else if size + 1 = 0 then (true, r.2.1, cpp)
      else
        let cp := (cpp.getD (List.replicate (size + 1).toNat 0)).set size.toNat 0
        let q := xdrOpaque size r.2.1 cp
        (q.1, q.2.1, some q.2.2)

/-! ## Constructed types -/

/-- The first `n` objects of an array, until one fails. -/
def xdrElems {α : Type} (elproc : XdrProc α) : Nat → XdrProc (List α)
  | 0, xdr, l => (true, xdr, l)
  | _ + 1, xdr, [] => (true, xdr, [])
  | n + 1, xdr, a :: l =>
      let r := elproc xdr a
      if r.1 then
        let q := xdrElems elproc n r.2.1 l
        (q.1, q.2.1, r.2.2 :: q.2.2)
      else (false, r.2.1, r.2.2 :: l)

def xdrVector {α : Type} (nelem : Word) (elproc : XdrProc α) : XdrProc (List α) :=
  xdrElems elproc nelem.toNat

/-- The counted array; `zero` is an element of zeroed memory. -/
def xdrArray {α : Type} (maxsize : Word) (zero : α) (elproc : XdrProc α) :
    XdrProc (Counted α) := fun xdr a =>
  let r := xdrUInt xdr a.size
  let a := { a with size := r.2.2 }
  if !r.1 then (false, r.2.1, a)
  else if a.size > maxsize ∧ xdr.xOp ≠ .free then (false, r.2.1, a)
  else
    match xdr.xOp, a.ptr with
    | .free, none => (true, r.2.1, a)
    | .free, some l => ((xdrElems elproc a.size.toNat r.2.1 l).1,
        (xdrElems elproc a.size.toNat r.2.1 l).2.1, { a with ptr := none })
    | .decode, none =>
        if a.size = 0 then (true, r.2.1, a)
        else
          let q := xdrElems elproc a.size.toNat r.2.1 (List.replicate a.size.toNat zero)
          (q.1, q.2.1, { a with ptr := some q.2.2 })
    | _, some l =>
        let q := xdrElems elproc a.size.toNat r.2.1 l
        (q.1, q.2.1, { a with ptr := some q.2.2 })
    | .encode, none => (true, r.2.1, a)

/-- An object behind a pointer; `zero` is one of zeroed memory. A null pointer
is never encoded. -/
def xdrReference {α : Type} (zero : α) (proc : XdrProc α) : XdrProc (Option α) := fun xdr pp =>
  match xdr.xOp, pp with
  | .free, none => (true, xdr, none)
  | .encode, none => (false, xdr, none)
  | .decode, none =>
      let r := proc xdr zero
      (r.1, r.2.1, some r.2.2)
  | .free, some v => ((proc xdr v).1, (proc xdr v).2.1, none)
  | _, some v =>
      let r := proc xdr v
      (r.1, r.2.1, some r.2.2)

def xdrPointer {α : Type} (zero : α) (proc : XdrProc α) : XdrProc (Option α) := fun xdr objpp =>
  let r := xdrBool xdr (if objpp.isSome then 1 else 0)
  if !r.1 then (false, r.2.1, objpp)
  else if r.2.2 = 0 then (true, r.2.1, none)
  else xdrReference zero proc r.2.1 objpp

/-- A structure: the first fields, then the rest. -/
def xdrPair {α β : Type} (p : XdrProc α) (q : XdrProc β) : XdrProc (α × β) := fun xdr v =>
  let r := p xdr v.1
  if r.1 then
    let s := q r.2.1 v.2
    (s.1, s.2.1, (r.2.2, s.2.2))
  else (false, r.2.1, (r.2.2, v.2))

end HtcLeo
