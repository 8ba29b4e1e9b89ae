import HtcLeo.CString
import HtcLeo.NmeaToken
import HtcLeo.Runs

/-!
# The configuration file (`libgps/leo-gps-rpc.c`)

`parse_gps_conf` reads `gps.conf` word by word and looks for five keys in
each word. Four of them are looked for until they were found once, which
`CHECKED` remembers; the download interval is looked for while automatic
download is on. The word is read into `str[256]`, and the value is taken
from one character behind the key.

The five blocks of the loop are one definition, `examine`, applied to a
`ConfKey` that has the name, the range, the default and the flag of the
block; the interval, which has no flag, is told apart by that. The log of
a run is the list of its accesses to `str` and to `CHECKED` and of the
texts given to `atoi`.
-/

namespace HtcLeo

inductive ConfKey where
  | autoDownload
  | interval
  | cleanup
  | timeout
  | precision
deriving DecidableEq, Repr

namespace ConfKey

/-- The order of the blocks. -/
def all : List ConfKey := [autoDownload, interval, cleanup, timeout, precision]

def name : ConfKey → List Byte
  | autoDownload => "GPS1_XTRA_AUTO_DOWNLOAD_ENABLED".toList.map ch
  | interval => "GPS1_XTRA_DOWNLOAD_INTERVAL".toList.map ch
  | cleanup => "GPS1_CLEANUP_ENABLED".toList.map ch
  | timeout => "GPS1_SESSION_TIMEOUT".toList.map ch
  | precision => "GPS1_MEASUREMENT_PRECISION".toList.map ch

def inRange (i : Int) : ConfKey → Bool
  | autoDownload => i = 0 || i = 1
  | interval => i > 0 && i < 169
  | cleanup => i = 0 || i = 1
  | timeout => i > 1 && i < 121
  | precision => i > 0 && i < 16

/-- The initial value of the setting. -/
def default : ConfKey → Int
  | autoDownload => 0
  | interval => 24
  | cleanup => 1
  | timeout => 2
  | precision => 10

/-- The index of `CHECKED` that the block tests and sets. -/
def flag : ConfKey → Option Nat
  | autoDownload => some 1
  | interval => none
  | cleanup => some 2
  | timeout => some 3
  | precision => some 4

theorem mem_all (k : ConfKey) : k ∈ all := by cases k <;> decide

theorem nodup_all : all.Nodup := by decide

theorem flag_inj {k k' : ConfKey} {i : Nat} (h : k.flag = some i) (h' : k'.flag = some i) :
    k = k' := by
  rw [← h'] at h
  cases k <;> cases k' <;> first | rfl | cases h

end ConfKey

inductive ConfAccess where
  /-- A write to `str`. -/
  | write (index : Nat)
  /-- A read or write of `CHECKED`. -/
  | flag (index : Nat)
  /-- `atoi` of the text at `start`, in a word whose NUL is at `stop`. -/
  | number (start stop : Nat)
deriving DecidableEq, Repr

/-- The access to the flag of a key, if it has one. -/
def ConfKey.flagAccess (k : ConfKey) : List ConfAccess := k.flag.toList.map ConfAccess.flag

/-- What the parser finds in memory: the stack, and whether the byte behind the array
`CHECKED[4]` is set. -/
structure ConfMem where
  stack : Mem
  behind : Bool

/-- The statics and the buffer. `checked` is the array `CHECKED[4]` together with the
byte behind it, which serves nothing else here. -/
structure GpsConf where
  checked : Nat → Bool
  settings : ConfKey → Int
  str : Mem
  log : List ConfAccess

namespace GpsConf

/-- The statics as they are initialised; `str` is on the stack and holds anything. -/
def init (found : ConfMem) : GpsConf :=
  ⟨fun i => i = 4 && found.behind, ConfKey.default, found.stack, []⟩

/-- The string at `str + offset`, when a word of `len` characters was read. One that does
not end before the array does is cut there. -/
def textFrom (c : GpsConf) (len offset : Nat) : List Byte :=
  cstr (c.str.slice offset (max 256 (len + 1) - offset))

/-- Whether the block of a key goes on behind its first test. -/
def looksFor (c : GpsConf) (k : ConfKey) : Bool :=
  match k.flag with
  | some i => !c.checked i
  | none => c.settings .autoDownload ≠ 0

/-- `CHECKED[i] = 1`, for a key that has a flag. -/
def check (c : GpsConf) (k : ConfKey) : Nat → Bool :=
  match k.flag with
  | some i => Function.update c.checked i true
  | none => c.checked

/-- The block of a key. -/
def examine (len : Nat) (c : GpsConf) (k : ConfKey) : GpsConf :=
  let c := { c with log := c.log ++ k.flagAccess }
  if c.looksFor k then
    match strstr k.name (c.textFrom len 0) with
    | none => c
    | some p =>
        let result := p + k.name.length + 1
        let i := atoi (c.textFrom len result)
        { c with
          settings := if k.inRange i then Function.update c.settings k i else c.settings
          checked := c.check k
          log := c.log ++ ConfAccess.number result (c.textFrom len 0).length :: k.flagAccess }
  else c

/-- `fscanf(file, "%s", str)` with the next word. -/
def readWord (c : GpsConf) (w : List Byte) : GpsConf :=
  { c with
    str := c.str.write 0 (w ++ [0])
    log := c.log ++ (List.range (w.length + 1)).map ConfAccess.write }

/-- A round of the loop. -/
def parseWord (c : GpsConf) (w : List Byte) : GpsConf :=
  ConfKey.all.foldl (examine w.length) (c.readWord w)

end GpsConf

def parseGpsConf (found : ConfMem) (content : List Byte) : GpsConf :=
  runFrom GpsConf.parseWord (.init found) (scanWords content)

/-! ## What a round does -/

namespace GpsConf

theorem examine_str (len : Nat) (c : GpsConf) (k : ConfKey) : (examine len c k).str = c.str := by
  unfold examine
  dsimp only
  split
  · split <;> rfl
  · rfl

theorem check_of_ne {c : GpsConf} {k k' : ConfKey} (hne : k' ≠ k) {i : Nat}
    (hi : k'.flag = some i) : c.check k i = c.checked i := by
  unfold check
  cases hk : k.flag with
  | none => rfl
  | some j =>
      refine Function.update_of_ne ?_ _ _
      rintro rfl
      exact hne (ConfKey.flag_inj hi hk)

theorem check_self {c : GpsConf} {k : ConfKey} {i : Nat} (hk : k.flag = some i) :
    c.check k i = true := by
  unfold check
  rw [hk]
  exact Function.update_self ..

/-- The block of a key touches its own setting and its own flag only. -/
theorem examine_frame (len : Nat) (c : GpsConf) {k k' : ConfKey} (hne : k' ≠ k) :
    (examine len c k).settings k' = c.settings k'
      ∧ ∀ i, k'.flag = some i → (examine len c k).checked i = c.checked i := by
  unfold examine
  dsimp only
  split
  · split
    · exact ⟨rfl, fun _ _ => rfl⟩
    · refine ⟨?_, fun i hi => ?_⟩
      · dsimp only
        split
        · exact Function.update_of_ne hne _ _
        · rfl
      · exact check_of_ne hne hi
  · exact ⟨rfl, fun _ _ => rfl⟩

theorem foldl_examine_frame (len : Nat) (c : GpsConf) {ks : List ConfKey} {k : ConfKey}
    (hk : k ∉ ks) :
    (ks.foldl (examine len) c).str = c.str
      ∧ (ks.foldl (examine len) c).settings k = c.settings k
      ∧ ∀ i, k.flag = some i → (ks.foldl (examine len) c).checked i = c.checked i := by
  induction ks generalizing c with
  | nil => exact ⟨rfl, rfl, fun _ _ => rfl⟩
  | cons k' ks ih =>
      rw [List.mem_cons, not_or] at hk
      obtain ⟨hstr, hset, hchecked⟩ := ih (c := examine len c k') hk.2
      obtain ⟨hset', hchecked'⟩ := examine_frame len c hk.1
      rw [List.foldl_cons]
      exact ⟨hstr.trans (examine_str len c k'), hset.trans hset',
        fun i hi => (hchecked i hi).trans (hchecked' i hi)⟩

/-- The buffer behind a word that was read: the rest of the word, from any place inside it. -/
theorem textFrom_word {c : GpsConf} {m : Mem} {w : List Byte} (hstr : c.str = m.write 0 (w ++ [0]))
    {offset : Nat} (hoffset : offset ≤ (cstr w).length) :
    c.textFrom w.length offset = (cstr w).drop offset := by
  have hlen := length_cstr_le w
  have hall : c.str.slice 0 (max 256 (w.length + 1))
      = w ++ 0 :: (c.str.slice (w.length + 1 : Nat) (max 256 (w.length + 1) - (w.length + 1))) := by
    have hword : c.str.slice 0 (w.length + 1) = w ++ [0] := by
      rw [hstr]
      have := Mem.slice_write m 0 (w ++ [0])
      rwa [List.length_append, List.length_singleton] at this
    have hsplit := Mem.slice_add c.str 0 (w.length + 1) (max 256 (w.length + 1) - (w.length + 1))
    rw [hword, Nat.add_sub_cancel' (by omega), List.append_assoc] at hsplit
    simpa using hsplit
  have hfrom : c.str.slice offset (max 256 (w.length + 1) - offset)
      = (c.str.slice 0 (max 256 (w.length + 1))).drop offset := by
    rw [Mem.drop_slice (by omega)]
    simp
  rw [textFrom, hfrom, hall, cstr_drop, cstr_append_zero]
  rwa [cstr_append_zero]

/-! ## What a round accesses -/

/-- What the block of a key adds to the log. -/
def Touches (len : Nat) (c : GpsConf) (k : ConfKey) (a : ConfAccess) : Prop :=
  a ∈ k.flagAccess
    ∨ ∃ p, c.looksFor k = true ∧ strstr k.name (c.textFrom len 0) = some p
      ∧ a = .number (p + k.name.length + 1) (c.textFrom len 0).length

theorem mem_examine_log {len : Nat} {c : GpsConf} {k : ConfKey} {a : ConfAccess} :
    a ∈ (examine len c k).log ↔ a ∈ c.log ∨ Touches len c k a := by
  have htext : ∀ log offset, textFrom { c with log := log } len offset = c.textFrom len offset :=
    fun _ _ => rfl
  have hlooks : ∀ log, looksFor { c with log := log } k = c.looksFor k := fun _ => rfl
  unfold examine Touches
  simp only [htext, hlooks]
  cases hlook : c.looksFor k with
  | false => simp
  | true =>
      cases hfound : strstr k.name (c.textFrom len 0) with
      | none => simp
      | some p =>
          simp only [if_true, List.mem_append, List.mem_cons, Option.some.injEq, true_and,
            exists_eq_left']
          tauto

/-- The state in which a round comes to the block of a key. -/
def atBlock (c : GpsConf) (w : List Byte) (k : ConfKey) : GpsConf :=
  runFrom (examine w.length) (c.readWord w) (ConfKey.all.takeWhile (· ≠ k))

theorem all_split {before after : List ConfKey} {k : ConfKey}
    (h : ConfKey.all = before ++ k :: after) :
    before = ConfKey.all.takeWhile (· ≠ k) ∧ k ∉ before ∧ k ∉ after := by
  have hnodup := ConfKey.nodup_all
  rw [h, List.nodup_append, List.nodup_cons] at hnodup
  obtain ⟨-, ⟨hafter, -⟩, hdisj⟩ := hnodup
  have hbefore : k ∉ before := fun hk => hdisj k hk k (List.mem_cons_self ..) rfl
  refine ⟨?_, hbefore, hafter⟩
  rw [h, List.takeWhile_append_of_pos, List.takeWhile_cons_of_neg (by simp), List.append_nil]
  intro x hx
  simpa using fun hxk : x = k => hbefore (hxk ▸ hx)

theorem atBlock_str (c : GpsConf) (w : List Byte) (k : ConfKey) :
    (c.atBlock w k).str = c.str.write 0 (w ++ [0]) := by
  obtain ⟨before, after, hsplit⟩ := List.append_of_mem k.mem_all
  obtain ⟨hbefore, hnot, -⟩ := all_split hsplit
  rw [atBlock, ← hbefore]
  exact (foldl_examine_frame _ _ hnot).1

/-- What a round adds to the log. -/
def RoundTouches (c : GpsConf) (w : List Byte) (a : ConfAccess) : Prop :=
  (∃ i, i ≤ w.length ∧ a = .write i) ∨ ∃ k, Touches w.length (c.atBlock w k) k a

theorem mem_parseWord_log (c : GpsConf) (w : List Byte) (a : ConfAccess) :
    a ∈ (parseWord c w).log ↔ a ∈ c.log ∨ RoundTouches c w a := by
  have hread : a ∈ (c.readWord w).log ↔ a ∈ c.log ∨ ∃ i, i ≤ w.length ∧ a = .write i := by
    simp only [readWord, List.mem_append, List.mem_map, List.mem_range, Nat.lt_succ_iff]
    refine or_congr_right (exists_congr fun i => and_congr_right fun _ => eq_comm)
  have hblocks : a ∈ (parseWord c w).log ↔ a ∈ (c.readWord w).log
      ∨ ∃ before k after, ConfKey.all = before ++ k :: after
        ∧ Touches w.length (runFrom (examine w.length) (c.readWord w) before) k a :=
    mem_runFrom_log GpsConf.log (fun _ _ _ => mem_examine_log)
  rw [hblocks, hread, or_assoc, RoundTouches]
  refine or_congr_right (or_congr_right ?_)
  constructor
  · rintro ⟨before, k, after, hsplit, hk⟩
    rw [(all_split hsplit).1] at hk
    exact ⟨k, hk⟩
  · rintro ⟨k, hk⟩
    obtain ⟨before, after, hsplit⟩ := List.append_of_mem k.mem_all
    rw [atBlock, ← (all_split hsplit).1] at hk
    exact ⟨before, k, after, hsplit, hk⟩

end GpsConf

/-! ## Staying in bounds -/

/-- `str` has 256 entries and `CHECKED` 4, and `atoi` starts at or before the NUL of the
word. -/
def ConfAccess.InBounds : ConfAccess → Prop
  | .write index => index < 256
  | .flag index => index < 4
  | .number start stop => start ≤ stop

/-- A key that the round looks for and finds is not the end of the word. -/
def KeysGoOn (c : GpsConf) (w : List Byte) : Prop :=
  ∀ k : ConfKey, (c.atBlock w k).looksFor k = true →
    ∀ p, strstr k.name (cstr w) = some p → p + k.name.length < (cstr w).length

theorem mem_run_log {found : ConfMem} {ws : List (List Byte)} {a : ConfAccess} :
    a ∈ (runFrom GpsConf.parseWord (.init found) ws).log ↔
      ∃ before w after, ws = before ++ w :: after
        ∧ GpsConf.RoundTouches (runFrom GpsConf.parseWord (.init found) before) w a := by
  rw [mem_runFrom_log GpsConf.log GpsConf.mem_parseWord_log]
  simp [GpsConf.init]

/-- A round writes `str` as far as the word and its NUL reach. -/
theorem roundTouches_write {c : GpsConf} {w : List Byte} {i : Nat} :
    c.RoundTouches w (.write i) ↔ i ≤ w.length := by
  constructor
  · rintro (⟨j, hj, heq⟩ | ⟨k, hflag | ⟨p, -, -, heq⟩⟩)
    · obtain rfl := ConfAccess.write.inj heq
      exact hj
    · simp [ConfKey.flagAccess] at hflag
    · cases heq
  · intro hi
    exact .inl ⟨i, hi, rfl⟩

/-- Every round tests the flag of every key. -/
theorem roundTouches_flag {c : GpsConf} {w : List Byte} {k : ConfKey} {i : Nat}
    (hk : k.flag = some i) : c.RoundTouches w (.flag i) :=
  .inr ⟨k, .inl (by simp [ConfKey.flagAccess, hk])⟩

theorem roundTouches_number {c : GpsConf} {w : List Byte} {start stop : Nat} :
    c.RoundTouches w (.number start stop) ↔
      ∃ k p, (c.atBlock w k).looksFor k = true ∧ strstr k.name (cstr w) = some p
        ∧ start = p + k.name.length + 1 ∧ stop = (cstr w).length := by
  have htext : ∀ k, (c.atBlock w k).textFrom w.length 0 = cstr w := fun k =>
    GpsConf.textFrom_word (c.atBlock_str w k) (Nat.zero_le _)
  constructor
  · rintro (⟨j, -, heq⟩ | ⟨k, hflag | ⟨p, hlook, hp, heq⟩⟩)
    · cases heq
    · simp [ConfKey.flagAccess] at hflag
    · rw [htext] at hp heq
      obtain ⟨hstart, hstop⟩ := ConfAccess.number.inj heq
      exact ⟨k, p, hlook, hp, hstart, hstop⟩
  · rintro ⟨k, p, hlook, hp, rfl, rfl⟩
    refine .inr ⟨k, .inr ⟨p, hlook, ?_, ?_⟩⟩
    · rw [htext]
      exact hp
    · rw [htext]

/-- No write leaves `str`. -/
def GpsConf.StaysInStr (c : GpsConf) : Prop :=
  ∀ i, .write i ∈ c.log → (ConfAccess.write i).InBounds

theorem staysInStr_iff (found : ConfMem) (ws : List (List Byte)) :
    (runFrom GpsConf.parseWord (.init found) ws).StaysInStr ↔ ∀ w ∈ ws, w.length ≤ 255 := by
  constructor
  · intro h w hw
    obtain ⟨before, after, hsplit⟩ := List.append_of_mem hw
    exact Nat.lt_succ_iff.mp (h w.length (mem_run_log.mpr
      ⟨before, w, after, hsplit, roundTouches_write.mpr (le_refl _)⟩))
  · intro h i hi
    obtain ⟨before, w, after, hsplit, hw⟩ := mem_run_log.mp hi
    have hlen := h w (by rw [hsplit]; simp)
    have := roundTouches_write.mp hw
    exact Nat.lt_succ_iff.mpr (this.trans hlen)

/-- **Bounds of the configuration parser.** For every content: the words stay inside
`str` if and only if none has more than 255 characters; `atoi` starts inside the word if
and only if every key that is found is followed by a character; and every access is in
bounds if and only if there is no word at all, as each round tests `CHECKED[4]`. -/
theorem conf_bounds_iff (found : ConfMem) (content : List Byte) :
    ((∀ i, .write i ∈ (parseGpsConf found content).log → (ConfAccess.write i).InBounds) ↔
        ∀ w ∈ scanWords content, w.length ≤ 255)
      ∧ ((∀ start stop, .number start stop ∈ (parseGpsConf found content).log →
          (ConfAccess.number start stop).InBounds) ↔
        AllSteps GpsConf.parseWord KeysGoOn (.init found) (scanWords content))
      ∧ ((∀ a ∈ (parseGpsConf found content).log, a.InBounds) ↔ scanWords content = []) := by
  refine ⟨staysInStr_iff found (scanWords content), ?_, ?_⟩
  · rw [allSteps_iff_split]
    constructor
    · intro h before w after hsplit k hlook p hp
      exact h _ _ (mem_run_log.mpr ⟨before, w, after, hsplit,
        roundTouches_number.mpr ⟨k, p, hlook, hp, rfl, rfl⟩⟩)
    · intro h start stop hmem
      obtain ⟨before, w, after, hsplit, hw⟩ := mem_run_log.mp hmem
      obtain ⟨k, p, hlook, hp, rfl, rfl⟩ := roundTouches_number.mp hw
      exact h before w after hsplit k hlook p hp
  · constructor
    · intro h
      cases hwords : scanWords content with
      | nil => rfl
      | cons w ws =>
          have hflag := h (.flag 4) (mem_run_log.mpr
            ⟨[], w, ws, hwords, roundTouches_flag (k := .precision) rfl⟩)
          exact absurd hflag (by simp [ConfAccess.InBounds])
    · intro hnone a ha
      obtain ⟨before, w, after, hsplit, -⟩ := mem_run_log.mp ha
      rw [hnone] at hsplit
      exact absurd hsplit (by simp)

/-- A file with a single setting reads behind `CHECKED`. -/
theorem one_setting_out_of_bounds :
    let content := "GPS1_SESSION_TIMEOUT=5".toList.map ch
    ConfAccess.flag 4 ∈ (parseGpsConf ⟨fun _ => 0, false⟩ content).log
      ∧ ¬∀ a ∈ (parseGpsConf ⟨fun _ => 0, false⟩ content).log, a.InBounds := by
  intro content
  have hmem : ConfAccess.flag 4 ∈ (parseGpsConf ⟨fun _ => 0, false⟩ content).log := by decide +kernel
  refine ⟨hmem, fun h => ?_⟩
  exact absurd (h _ hmem) (by simp [ConfAccess.InBounds])

end HtcLeo
