import HtcLeo.RpcMsg

/-!
# Reply headers on the wire

`xdr_send_reply_header` of `rpc.c` and `xdr_recv_reply_header` of `clnt.c`
are two separate programs for one format. What the first one appends is
`headerBytes`, arm by arm; the second one is followed through the same
bytes. They agree on all but a verifier with a body: `xdr_recv_auth` reads
it past, as its comment says, and then returns `FALSE` in either case.
-/

namespace HtcLeo

/-! ## What is sent -/

def authBytes (auth : OpaqueAuth) : List Byte :=
  wordsBytes [auth.oaFlavor, auth.oaLength]
    ++ if auth.oaLength = 0 then [] else paddedBytes auth.oaBase

/-- The words behind the verifier. -/
def RpcAcceptedReplyHeader.words (ar : RpcAcceptedReplyHeader) : List Word :=
  ar.stat.code :: if ar.stat = .progMismatch then [ar.low, ar.high] else []

def RpcDeniedReply.words : RpcDeniedReply → List Word
  | mismatch low high => [0, low, high]
  | authError why => [1, why]

def headerBytes : RpcReplyHeader → List Byte
  | .accepted ar => wordsBytes [0] ++ (authBytes ar.verf ++ wordsBytes ar.words)
  | .denied dr => wordsBytes (1 :: dr.words)

theorem sendAnd_true {r : Bool × Xdr} {next : Xdr → Bool × Xdr} {x' : Xdr}
    (h : sendAnd r next = (true, x')) : ∃ x, r = (true, x) ∧ next x = (true, x') := by
  obtain ⟨ok, x⟩ := r
  unfold sendAnd at h
  cases ok with
  | true => exact ⟨x, rfl, h⟩
  | false => cases h

/-- A word in front of something else. -/
theorem sendAnd_word_true {x x' : Xdr} {v : Word} {next : Xdr → Bool × Xdr}
    (h : sendAnd (xdrStdSendUint32 x v) next = (true, x')) :
    next (x.emit (Mem.wordBytes v)) = (true, x') ∧ x.outNext ≤ 2044 := by
  obtain ⟨x1, hsend, hnext⟩ := sendAnd_true h
  obtain ⟨rfl, hroom⟩ := xdrStdSendUint32_true hsend
  exact ⟨hnext, hroom⟩

/-- The length of a verifier is that of its body, and the body is not too long. -/
structure OpaqueAuth.Wf (auth : OpaqueAuth) : Prop where
  length : auth.oaBase.length = auth.oaLength.toNat
  maxAuthBytes : auth.oaLength.toNat ≤ 400

theorem xdrSendAuth_true {x x' : Xdr} {auth : OpaqueAuth} (hx : x.OutReady) (hauth : auth.Wf)
    (h : xdrSendAuth x auth = (true, x')) : x' = x.emit (authBytes auth) := by
  unfold xdrSendAuth at h
  obtain ⟨h, hroom⟩ := sendAnd_word_true h
  obtain ⟨h, hroom'⟩ := sendAnd_word_true h
  rw [Xdr.emit_outNext, Mem.length_wordBytes] at hroom'
  rw [Xdr.emit_emit] at h
  have hready : (x.emit (Mem.wordBytes auth.oaFlavor ++ Mem.wordBytes auth.oaLength)).OutReady :=
    hx.emit (by simp) (by simp; omega)
  rw [authBytes]
  split_ifs at h ⊢ with hempty
  · rw [← (Prod.mk.inj h).2]
    simp
  · have hlength := hauth.length
    have hmax := hauth.maxAuthBytes
    obtain ⟨rfl, -⟩ := xdrStdSendBytes_true hready hlength (by omega) h
    rw [Xdr.emit_emit]
    simp

theorem xdrSendAcceptedReplyHeader_true {x x' : Xdr} {ar : RpcAcceptedReplyHeader}
    (hx : x.OutReady) (hverf : ar.verf.Wf)
    (h : xdrSendAcceptedReplyHeader x ar = (true, x')) :
    x' = x.emit (authBytes ar.verf ++ wordsBytes ar.words) := by
  unfold xdrSendAcceptedReplyHeader at h
  obtain ⟨x1, hauth, h⟩ := sendAnd_true h
  obtain rfl := xdrSendAuth_true hx hverf hauth
  obtain ⟨h, -⟩ := sendAnd_word_true h
  rw [RpcAcceptedReplyHeader.words]
  by_cases hstat : ar.stat = .progMismatch
  · simp only [hstat] at h
    obtain ⟨h, -⟩ := sendAnd_word_true h
    obtain ⟨rfl, -⟩ := xdrStdSendUint32_true h
    simp [hstat, Xdr.emit_emit]
  · have hlast : x' = (x.emit (authBytes ar.verf)).emit (Mem.wordBytes ar.stat.code) := by
      cases hcase : ar.stat with
      | progMismatch => exact absurd hcase hstat
      | _ =>
          simp only [hcase] at h
          exact (Prod.mk.inj h).2.symm
    rw [hlast, if_neg hstat, Xdr.emit_emit]
    simp

/-- A header that is sent appends its bytes. -/
theorem xdrSendReplyHeader_true {x x' : Xdr} {hdr : RpcReplyHeader} (hx : x.OutReady)
    (hverf : ∀ ar, hdr = .accepted ar → ar.verf.Wf) (h : xdrSendReplyHeader x hdr = (true, x')) :
    x' = x.emit (headerBytes hdr) := by
  cases hdr with
  | accepted ar =>
      rw [xdrSendReplyHeader] at h
      obtain ⟨h, hroom⟩ := sendAnd_word_true h
      have hready : (x.emit (Mem.wordBytes 0)).OutReady := hx.emit (by simp) (by simp; omega)
      obtain rfl := xdrSendAcceptedReplyHeader_true hready (hverf ar rfl) h
      simp [headerBytes, Xdr.emit_emit]
  | denied dr =>
      rw [xdrSendReplyHeader] at h
      obtain ⟨h, -⟩ := sendAnd_word_true h
      cases dr with
      | mismatch low high =>
          rw [xdrSendDeniedReply] at h
          obtain ⟨h, -⟩ := sendAnd_word_true h
          obtain ⟨h, -⟩ := sendAnd_word_true h
          obtain ⟨rfl, -⟩ := xdrStdSendUint32_true h
          simp [headerBytes, RpcDeniedReply.words, Xdr.emit_emit]
      | authError why =>
          rw [xdrSendDeniedReply] at h
          obtain ⟨h, -⟩ := sendAnd_word_true h
          obtain ⟨rfl, -⟩ := xdrStdSendUint32_true h
          simp [headerBytes, RpcDeniedReply.words, Xdr.emit_emit]

/-! ## What is received -/

/-- The first of some words at the cursor. -/
theorem xdrStdRecvUint32_cons {y : Xdr} {w : Word} {ws : List Word} {bs : List Byte}
    (h : y.Holds (wordsBytes (w :: ws) ++ bs)) :
    (∀ old, xdrStdRecvUint32 y old = (true, y.advance 4, w))
      ∧ (y.advance 4).Holds (wordsBytes ws ++ bs) := by
  rw [wordsBytes_cons, List.append_assoc] at h
  exact ⟨xdrStdRecvUint32_eq h.left, h.right (by simp)⟩

theorem RpcAcceptStat.ofCode_code (stat : RpcAcceptStat) :
    RpcAcceptStat.ofCode stat.code = some stat := by
  cases stat <;> decide

theorem xdrRecvDeniedReply_eq {y : Xdr} (dr : RpcDeniedReply)
    (h : y.Holds (wordsBytes dr.words ++ [])) :
    xdrRecvDeniedReply y = (y.advance (4 * dr.words.length), some dr) := by
  cases dr with
  | mismatch low high =>
      obtain ⟨hstat, h⟩ := xdrStdRecvUint32_cons h
      obtain ⟨hlow, h⟩ := xdrStdRecvUint32_cons h
      rw [Xdr.advance_advance] at h
      obtain ⟨hhigh, -⟩ := xdrStdRecvUint32_cons h
      simp only [xdrRecvDeniedReply, hstat, hlow, hhigh, Xdr.advance_advance]
      rfl
  | authError why =>
      obtain ⟨hstat, h⟩ := xdrStdRecvUint32_cons h
      obtain ⟨hwhy, -⟩ := xdrStdRecvUint32_cons h
      simp only [xdrRecvDeniedReply, hstat, hwhy, Xdr.advance_advance]
      rfl

/-- Without a body the verifier is read like two words. -/
theorem xdrRecvAuth_empty {y : Xdr} {flavor : Word} {bs : List Byte}
    (h : y.Holds (wordsBytes [flavor, 0] ++ bs)) :
    xdrRecvAuth y = (true, y.advance 8, ⟨flavor, [], 0⟩) ∧ (y.advance 8).Holds bs := by
  obtain ⟨hflavor, h⟩ := xdrStdRecvUint32_cons h
  obtain ⟨hlen, h⟩ := xdrStdRecvUint32_cons h
  refine ⟨?_, ?_⟩
  · simp [xdrRecvAuth, hflavor, hlen, Xdr.advance_advance]
  · rwa [Xdr.advance_advance] at h

/-- With a body it is refused. -/
theorem xdrRecvAuth_body {y : Xdr} {flavor len : Word} {bs : List Byte}
    (h : y.Holds (wordsBytes [flavor, len] ++ bs)) (hlen : len ≠ 0) : (xdrRecvAuth y).1 = false := by
  obtain ⟨hflavor, h⟩ := xdrStdRecvUint32_cons h
  obtain ⟨hlength, -⟩ := xdrStdRecvUint32_cons h
  simp only [xdrRecvAuth, hflavor, hlength, Bool.not_true, Bool.false_eq_true, if_false, ne_eq, hlen,
    not_false_eq_true, if_true]

theorem xdrRecvAcceptedReplyHeader_eq {y : Xdr} (ar : RpcAcceptedReplyHeader)
    (hempty : ar.verf.oaLength = 0) (h : y.Holds (authBytes ar.verf ++ wordsBytes ar.words)) :
    ∃ low high, xdrRecvAcceptedReplyHeader y
        = (y.advance (8 + 4 * ar.words.length), some ⟨⟨ar.verf.oaFlavor, [], 0⟩, ar.stat, low, high⟩)
      ∧ (ar.stat = .progMismatch → low = ar.low ∧ high = ar.high) := by
  rw [authBytes, if_pos hempty, List.append_nil, hempty] at h
  obtain ⟨hauth, h⟩ := xdrRecvAuth_empty h
  rw [← List.append_nil (wordsBytes ar.words)] at h
  obtain ⟨hstat, h⟩ := xdrStdRecvUint32_cons h
  by_cases hmismatch : ar.stat = .progMismatch
  · rw [if_pos hmismatch, Xdr.advance_advance] at h
    obtain ⟨hlow, h⟩ := xdrStdRecvUint32_cons h
    rw [Xdr.advance_advance] at h
    obtain ⟨hhigh, -⟩ := xdrStdRecvUint32_cons h
    refine ⟨ar.low, ar.high, ?_, fun _ => ⟨rfl, rfl⟩⟩
    rw [hmismatch] at hstat
    simp only [xdrRecvAcceptedReplyHeader, hauth, hstat, RpcAcceptStat.ofCode_code, hlow, hhigh,
      RpcAcceptedReplyHeader.words, hmismatch, Xdr.advance_advance]
    rfl
  · refine ⟨0, 0, ?_, fun hm => absurd hm hmismatch⟩
    simp only [xdrRecvAcceptedReplyHeader, hauth, hstat, RpcAcceptStat.ofCode_code,
      RpcAcceptedReplyHeader.words, if_neg hmismatch, Xdr.advance_advance, Bool.not_true,
      Bool.false_eq_true, if_false]
    cases hcase : ar.stat with
    | progMismatch => exact absurd hcase hmismatch
    | _ => rfl

/-! ## Survival -/

/-- Equal but for the verifier; the version range counts for a mismatch only. -/
def RpcReplyHeader.Same : RpcReplyHeader → RpcReplyHeader → Prop
  | accepted a, accepted b =>
      a.stat = b.stat ∧ (b.stat = .progMismatch → a.low = b.low ∧ a.high = b.high)
  | denied a, denied b => a = b
  | _, _ => False

/-- The verifier of the header has no body. -/
def RpcReplyHeader.EmptyVerifier : RpcReplyHeader → Prop
  | accepted ar => ar.verf.oaLength = 0
  | denied _ => True

/-- **Reply headers on the wire.** A header that was sent is received as the
same one, up to the place where the encoder stopped, exactly if it has no
verifier with a body. -/
theorem reply_header_survives_iff {x x' y : Xdr} (hdr : RpcReplyHeader) (hx : x.OutReady)
    (hverf : ∀ ar, hdr = .accepted ar → ar.verf.Wf)
    (hsent : xdrSendReplyHeader x hdr = (true, x'))
    (hy : y.Holds (x'.outMsg.slice x.outNext (x'.outNext - x.outNext).toNat)) :
    (∃ y' hdr', xdrRecvReplyHeader y = (y', some hdr') ∧ hdr'.Same hdr
        ∧ y'.inNext - y.inNext = x'.outNext - x.outNext)
      ↔ hdr.EmptyVerifier := by
  obtain rfl := xdrSendReplyHeader_true hx hverf hsent
  have hsize : (x.emit (headerBytes hdr)).outNext - x.outNext = (headerBytes hdr).length := by
    rw [Xdr.emit_outNext]
    omega
  rw [hsize, Int.toNat_natCast, Xdr.emit_slice] at hy
  rw [hsize]
  cases hdr with
  | denied dr =>
      refine iff_of_true ?_ trivial
      rw [headerBytes, ← List.append_nil (wordsBytes _)] at hy
      obtain ⟨hstat, hy⟩ := xdrStdRecvUint32_cons hy
      refine ⟨y.advance (4 + 4 * dr.words.length), .denied dr, ?_, rfl, ?_⟩
      · simp [xdrRecvReplyHeader, hstat, xdrRecvDeniedReply_eq dr hy, Xdr.advance_advance]
      · rw [headerBytes, length_wordsBytes, List.length_cons, Xdr.advance_inNext]
        omega
  | accepted ar =>
      rw [headerBytes] at hy
      obtain ⟨hstat, hy⟩ := xdrStdRecvUint32_cons hy
      rw [wordsBytes_nil, List.nil_append] at hy
      by_cases hempty : ar.verf.oaLength = 0
      · refine iff_of_true ?_ hempty
        obtain ⟨low, high, hrecv, hrange⟩ := xdrRecvAcceptedReplyHeader_eq ar hempty hy
        refine ⟨y.advance (4 + (8 + 4 * ar.words.length)),
          .accepted ⟨⟨ar.verf.oaFlavor, [], 0⟩, ar.stat, low, high⟩, ?_, ⟨rfl, hrange⟩, ?_⟩
        · simp only [xdrRecvReplyHeader, hstat, hrecv, Xdr.advance_advance]
          rfl
        · simp only [headerBytes, authBytes, if_pos hempty, List.length_append, length_wordsBytes,
            List.length_nil, List.length_cons, Xdr.advance_inNext]
          omega
      · refine iff_of_false ?_ hempty
        rintro ⟨y', hdr', hrecv, -⟩
        rw [authBytes, List.append_assoc] at hy
        have hrefused := xdrRecvAuth_body hy hempty
        simp [xdrRecvReplyHeader, hstat, xdrRecvAcceptedReplyHeader, hrefused] at hrecv

/-- A started reply, and the handle that receives what is sent behind it. -/
def startedReply : Xdr := (xdrStdMsgStart (xdrInitCommon 3 false) .reply).2

def Xdr.loopback (x x' : Xdr) : Xdr :=
  { x with inMsg := x'.outMsg, inNext := x.outNext, inLen := x'.outNext }

/-- A version mismatch is received as it was sent. -/
theorem mismatch_header_survives :
    let x' := (xdrSendReplyHeader startedReply (.denied (.mismatch 2 3))).2
    ∃ y' hdr', xdrRecvReplyHeader (startedReply.loopback x') = (y', some hdr')
      ∧ hdr'.Same (.denied (.mismatch 2 3))
      ∧ y'.inNext - (startedReply.loopback x').inNext = x'.outNext - startedReply.outNext :=
  (reply_header_survives_iff (.denied (.mismatch 2 3)) (xdrStdMsgStart_outReady _ _) nofun rfl
    ⟨by decide, by decide, by decide, by decide, rfl⟩).mpr trivial

/-- A verifier of four bytes. -/
def shortVerifier : OpaqueAuth := ⟨1, [0xde, 0xad, 0xbe, 0xef], 4⟩

/-- A successful reply with a verifier of four bytes is sent, and refused when received. -/
theorem verifier_body_refused :
    let hdr : RpcReplyHeader := .accepted ⟨shortVerifier, .success, 0, 0⟩
    let x' := (xdrSendReplyHeader startedReply hdr).2
    shortVerifier.oaBase.length = shortVerifier.oaLength.toNat ∧ shortVerifier.oaLength.toNat ≤ 400
      ∧ (xdrSendReplyHeader startedReply hdr).1 = true
      ∧ (xdrRecvReplyHeader (startedReply.loopback x')).2 = none := by
  decide

end HtcLeo
