import HtcLeo.SvcRegistry

/-!
# The search for a ready descriptor (`svc_context` in `librpc/svc.c`)

When a descriptor is ready, the server thread looks up its entry in the
list of services and compares `trav->xdr->fd` on the way. The entry of a
callback client has no handle, and new entries go in front: a callback
client that was registered after a server stands between the head of the
list and that server, and the search ends with a null pointer.

`RegisteredLater` says this of the calls, without the list. The two agree
after every sequence of calls (`inFront_run`), so the search is safe
exactly for the servers after which no callback client was registered
that is still there (`search_safe_iff`).
-/

namespace HtcLeo

variable {δ : Type}

/-! ## The loops -/

/-- How the search for one descriptor ends. -/
inductive FdSearch (δ : Type) where
  | nullXdr
  | notFound
  | found (svc : ServerEntry δ)

/-- `for (; trav; trav = trav->next) if (trav->xdr->fd == n)` -/
def searchFd (n : Int) : List (ServerEntry δ) → FdSearch δ
  | [] => .notFound
  | trav :: rest =>
      match trav.xdr with
      | none => .nullXdr
      | some xdr => if xdr.fd = n then .found trav else searchFd n rest

/-- How a round ends: at the last descriptor, in `abort`, or at a null pointer. -/
inductive RoundEnd where
  | done
  | aborted
  | nullXdr
deriving DecidableEq, Repr

/-- The entries whose message is read, for some descriptors. `read` is whether the
message can be read; what is done with it leaves the list as it is. -/
def searchFds (read : Int → Bool) (servers : List (ServerEntry δ)) (rfds : Int → Bool) :
    List Nat → List (ServerEntry δ) × RoundEnd
  | [] => ([], .done)
  | n :: ns =>
      if rfds n then
        match searchFd n servers with
        | .nullXdr => ([], .nullXdr)
        | .notFound => searchFds read servers rfds ns
        | .found trav =>
            if read n then
              let r := searchFds read servers rfds ns
              (trav :: r.1, r.2)
            else ([trav], .aborted)
      else searchFds read servers rfds ns

/-- A round of `svc_context` after `select` has returned `rfds`. -/
def SvcXprt.searchRound (xprt : SvcXprt δ) (read rfds : Int → Bool) :
    List (ServerEntry δ) × RoundEnd :=
  searchFds read xprt.servers rfds (List.range (xprt.maxFd + 1).toNat)

/-- Whatever is read, no round ends at a null pointer, and one that gets to its
end has reached the owner of each ready descriptor. -/
def SvcXprt.SearchSafe (xprt : SvcXprt δ) (rfds : Int → Bool) : Prop :=
  ∀ read, (xprt.searchRound read rfds).2 ≠ .nullXdr
    ∧ ((xprt.searchRound read rfds).2 = .done → ∀ fd, rfds fd = true →
        ∃ svc ∈ xprt.servers, svc.fd = some fd ∧ svc ∈ (xprt.searchRound read rfds).1)

/-- The pair `a` was put into the list when `b` was there, and both have stayed
since. -/
def RegisteredLater (a b : Word × Word) (calls : List (SvcCall δ)) : Prop :=
  ∃ before c after, calls = before ++ c :: after
    ∧ (c.Inserts a.1 a.2 ∧ ¬ Since (SvcCall.Inserts a.1 a.2) (SvcCall.Removes a.1 a.2) before
      ∧ Since (SvcCall.Inserts b.1 b.2) (SvcCall.Removes b.1 b.2) before)
    ∧ ∀ d ∈ after, ¬ (d.Removes a.1 a.2 ∨ d.Removes b.1 b.2)

/-! ## The order of the list -/

/-- The entry of `a` is in front of that of `b`. -/
def SvcXprt.InFront (xprt : SvcXprt δ) (a b : Word × Word) : Prop :=
  [a, b].Sublist (xprt.servers.map ServerEntry.key)

/-- A call puts `a` in front of `b`. -/
def SvcCall.PutsInFront (a b : Word × Word) (xprt : SvcXprt δ) (c : SvcCall δ) : Prop :=
  c.Inserts a.1 a.2 ∧ a ∉ xprt.servers.map ServerEntry.key ∧ b ∈ xprt.servers.map ServerEntry.key

/-- A new entry goes in front of all others. -/
theorem insert_inFront (xprt : SvcXprt δ) (svc : ServerEntry δ) (a b : Word × Word) :
    (xprt.insert svc).InFront a b ↔
      (svc.key = a ∧ b ∈ xprt.servers.map ServerEntry.key) ∨ xprt.InFront a b := by
  simp only [SvcXprt.InFront, SvcXprt.insert, List.map_cons, List.sublist_cons_iff]
  constructor
  · rintro (hsub | ⟨rest, heq, hrest⟩)
    · exact .inr hsub
    · obtain ⟨rfl, rfl⟩ := List.cons.inj heq
      exact .inl ⟨rfl, List.singleton_sublist.mp hrest⟩
  · rintro (⟨rfl, hb⟩ | hsub)
    · exact .inr ⟨[b], rfl, List.singleton_sublist.mpr hb⟩
    · exact .inl hsub

theorem svcRegister_inFront [DecidableEq δ] (a b : Word × Word) (xprt : SvcXprt δ) (p v : Word)
    (dispatch : δ) (io : RegisterIo) :
    (svcStep xprt (.register p v dispatch io)).InFront a b ↔
      SvcCall.PutsInFront a b xprt (.register p v dispatch io) ∨ xprt.InFront a b := by
  have hnew : ∀ xprt' : SvcXprt δ, ∀ svc : ServerEntry δ, xprt'.servers = xprt.servers →
      svc.key = (p, v) → xprt.svcFind p v = none → io.Accepts p →
      ((xprt'.insert svc).InFront a b ↔
        SvcCall.PutsInFront a b xprt (.register p v dispatch io) ∨ xprt.InFront a b) := by
    intro xprt' svc hservers hkey hnone hok
    rw [insert_inFront, hkey, SvcXprt.InFront, hservers]
    refine or_congr_left ?_
    constructor
    · rintro ⟨rfl, hb⟩
      exact ⟨⟨⟨rfl, rfl⟩, hok⟩, svcFind_none hnone, hb⟩
    · rintro ⟨⟨⟨rfl, rfl⟩, -⟩, -, hb⟩
      exact ⟨rfl, hb⟩
  rcases svcRegister_cases xprt p v dispatch io with
    ⟨hsame, hwhy⟩ | ⟨hnone, hcb, heq⟩ | ⟨hnone, -, hok, heq⟩
  · rw [svcStep, hsame]
    refine ⟨.inr, ?_⟩
    rintro (⟨⟨⟨rfl, rfl⟩, hok⟩, habsent, -⟩ | hfront)
    · exact absurd (svcFind_isSome.mp (hwhy.resolve_right (not_not_intro hok))) habsent
    · exact hfront
  · rw [svcStep, heq]
    exact hnew _ _ rfl rfl hnone (.inl hcb)
  · rw [svcStep, heq]
    exact hnew _ _ rfl rfl hnone hok

theorem svcUnregister_inFront [DecidableEq δ] (a b : Word × Word) {xprt : SvcXprt δ}
    (h : xprt.Inv) (p v : Word) (ioctl : Int) :
    (svcStep xprt (.unregister p v ioctl)).InFront a b ↔
      xprt.InFront a b ∧ ¬ ((p, v) = a ∨ (p, v) = b) := by
  rcases svcUnregister_cases h.addrs p v with
    ⟨hfind, hsame⟩ | ⟨l, svc, r, -, hkey, heq, hrest⟩
  · rw [svcStep, hsame]
    refine ⟨fun hfront => ⟨hfront, ?_⟩, fun hfront => hfront.1⟩
    rintro (rfl | rfl)
    · exact svcFind_none hfind (hfront.subset (by simp))
    · exact svcFind_none hfind (hfront.subset (by simp))
  · have hkeys := h.keys
    rw [heq, List.map_append, List.map_cons, hkey] at hkeys
    rw [svcStep, hrest, SvcXprt.InFront, SvcXprt.InFront, heq, List.map_append, List.map_append,
      List.map_cons, hkey]
    exact pair_sublist_remove hkeys

theorem svcStep_inFront [DecidableEq δ] (a b : Word × Word) (xprt : SvcXprt δ) (c : SvcCall δ)
    (h : xprt.Inv) :
    (svcStep xprt c).InFront a b ↔
      c.PutsInFront a b xprt
        ∨ xprt.InFront a b ∧ ¬ (c.Removes a.1 a.2 ∨ c.Removes b.1 b.2) := by
  cases c with
  | register p v dispatch io =>
      rw [svcRegister_inFront]
      simp [SvcCall.Removes]
  | unregister p v ioctl =>
      rw [svcUnregister_inFront a b h]
      simp [SvcCall.PutsInFront, SvcCall.Inserts, SvcCall.Removes, Prod.ext_iff]

/-- The order of the list is that of the calls. -/
theorem inFront_run [DecidableEq δ] {calls : List (SvcCall δ)}
    (h : AllSteps svcStep (fun xprt c => c.Fresh xprt) (SvcXprt.empty δ) calls)
    (a b : Word × Word) :
    (runFrom svcStep (SvcXprt.empty δ) calls).InFront a b ↔ RegisteredLater a b calls := by
  rw [AllSteps.iff_sinceAt (R := fun xprt => xprt.InFront a b) svcStep_inv
    (fun xprt c hxprt _ => svcStep_inFront a b xprt c hxprt) SvcXprt.empty_inv
    (by simp [SvcXprt.InFront, SvcXprt.empty]) h]
  refine exists_congr fun before => exists_congr fun c => exists_congr fun after =>
    and_congr_right fun heq => and_congr_left fun _ => ?_
  rw [heq] at h
  obtain ⟨hbefore, -⟩ := AllSteps.append.mp h
  rw [SvcCall.PutsInFront, ← svcFind_run hbefore, ← svcFind_run hbefore, svcFind_isSome,
    svcFind_isSome]

/-! ## The search -/

/-- An entry without a handle in front of the owner. -/
theorem searchFd_nullXdr {n : Int} {l : List (ServerEntry δ)} (r : List (ServerEntry δ))
    (hnull : ∃ x ∈ l, x.fd = none) (hne : ∀ x ∈ l, x.fd ≠ some n) :
    searchFd n (l ++ r) = .nullXdr := by
  induction l with
  | nil => simp at hnull
  | cons x l ih =>
      obtain ⟨hx, hrest⟩ := List.forall_mem_cons.mp hne
      cases hxdr : x.xdr with
      | none => simp only [List.cons_append, searchFd, hxdr]
      | some xdr =>
          have hother : ∃ y ∈ l, y.fd = none := by
            simpa [ServerEntry.fd, hxdr] using hnull
          have hfd : ¬ xdr.fd = n := by
            simpa [ServerEntry.fd, hxdr] using hx
          simp only [List.cons_append, searchFd, hxdr, if_neg hfd]
          exact ih hother hrest

theorem searchFd_found {n : Int} {l : List (ServerEntry δ)} {svc : ServerEntry δ}
    (r : List (ServerEntry δ)) (hl : ∀ x ∈ l, x.fd ≠ none ∧ x.fd ≠ some n)
    (hsvc : svc.fd = some n) : searchFd n (l ++ svc :: r) = .found svc := by
  induction l with
  | nil =>
      obtain ⟨xdr, hxdr, hfd⟩ := Option.map_eq_some_iff.mp hsvc
      simp only [List.nil_append, searchFd, hxdr, if_pos hfd]
  | cons x l ih =>
      obtain ⟨⟨hsome, hx⟩, hrest⟩ := List.forall_mem_cons.mp hl
      obtain ⟨fd, hfd⟩ := Option.ne_none_iff_exists'.mp hsome
      obtain ⟨xdr, hxdr, rfl⟩ := Option.map_eq_some_iff.mp hfd
      have hne : ¬ xdr.fd = n := by
        rw [hfd] at hx
        exact fun heq => hx (congrArg some heq)
      simp only [List.cons_append, searchFd, hxdr, if_neg hne]
      exact ih hrest

/-- A round that finds what it looks for reaches it, unless it is aborted before. -/
theorem searchFds_found {servers : List (ServerEntry δ)} {rfds : Int → Bool} (read : Int → Bool)
    {ns : List Nat} (h : ∀ n ∈ ns, rfds n = true → ∃ svc, searchFd n servers = .found svc) :
    (searchFds read servers rfds ns).2 ≠ .nullXdr
      ∧ ((searchFds read servers rfds ns).2 = .done → ∀ n ∈ ns, rfds n = true →
          ∀ svc, searchFd n servers = .found svc → svc ∈ (searchFds read servers rfds ns).1) := by
  induction ns with
  | nil => simp [searchFds]
  | cons n ns ih =>
      obtain ⟨hn, hns⟩ := List.forall_mem_cons.mp h
      obtain ⟨hend, hreached⟩ := ih hns
      by_cases hready : rfds n = true
      · obtain ⟨svc, hsvc⟩ := hn hready
        by_cases hread : read n = true
        · simp only [searchFds, hready, if_true, hsvc, hread]
          refine ⟨hend, fun hdone => List.forall_mem_cons.mpr ⟨fun _ svc' hsvc' => ?_, ?_⟩⟩
          · obtain rfl := FdSearch.found.inj (hsvc.symm.trans hsvc')
            exact List.mem_cons_self ..
          · intro m hm hmready svc' hsvc'
            exact List.mem_cons_of_mem svc (hreached hdone m hm hmready svc' hsvc')
        · simp [searchFds, hready, hsvc, hread]
      · simp only [searchFds, hready]
        refine ⟨hend, fun hdone => List.forall_mem_cons.mpr ⟨fun hrfds => ?_, hreached hdone⟩⟩
        exact absurd hrfds hready

/-- A null pointer on the way to a ready descriptor ends every round in which all
can be read. -/
theorem searchFds_nullXdr {servers : List (ServerEntry δ)} {rfds : Int → Bool} {ns : List Nat}
    {n : Nat} (hn : n ∈ ns) (hready : rfds n = true) (hnull : searchFd n servers = .nullXdr) :
    (searchFds (fun _ => true) servers rfds ns).2 = .nullXdr := by
  induction ns with
  | nil => cases hn
  | cons m ns ih =>
      rcases List.mem_cons.mp hn with rfl | hmem
      · simp only [searchFds, hready, if_true, hnull]
      · simp only [searchFds]
        split
        · split
          · rfl
          · exact ih hmem
          · exact ih hmem
        · exact ih hmem

/-- The search for a descriptor of the list ends at its owner, or at a callback
client in front of it. -/
theorem searchFd_owner {xprt : SvcXprt δ} (h : xprt.Inv) {svc : ServerEntry δ}
    (hsvc : svc ∈ xprt.servers) {fd : Int} (hfd : svc.fd = some fd) :
    (searchFd fd xprt.servers = .nullXdr
        ∧ ∃ prog vers, isCallback prog = true ∧ xprt.InFront (prog, vers) svc.key)
      ∨ (searchFd fd xprt.servers = .found svc
        ∧ ∀ prog vers, isCallback prog = true → ¬ xprt.InFront (prog, vers) svc.key) := by
  obtain ⟨l, r, heq⟩ := List.append_of_mem hsvc
  have hne : ∀ x ∈ l, x.fd ≠ some fd := by
    have hfds := h.fds
    rw [heq, List.filterMap_append, List.filterMap_cons_some hfd] at hfds
    intro x hx hxfd
    have hmem : fd ∈ l.filterMap ServerEntry.fd := List.mem_filterMap.mpr ⟨x, hx, hxfd⟩
    exact (List.nodup_append'.mp hfds).2.2 hmem (List.mem_cons_self ..)
  have hfront : ∀ a, xprt.InFront a svc.key ↔ a ∈ l.map ServerEntry.key := by
    intro a
    have hkeys := h.keys
    rw [heq, List.map_append, List.map_cons] at hkeys
    rw [SvcXprt.InFront, heq, List.map_append, List.map_cons]
    exact pair_sublist_middle hkeys
  have hhandle : ∀ x ∈ l, x.fd = none ↔ isCallback x.xProg = true :=
    fun x hx => h.handles x (by simp [heq, hx])
  by_cases hnull : ∃ x ∈ l, x.fd = none
  · obtain ⟨x, hx, hxfd⟩ := hnull
    refine .inl ⟨?_, x.xProg, x.xVers, (hhandle x hx).mp hxfd, ?_⟩
    · rw [heq]
      exact searchFd_nullXdr _ ⟨x, hx, hxfd⟩ hne
    · exact (hfront _).mpr (List.mem_map_of_mem hx)
  · refine .inr ⟨?_, fun prog vers hcb hin => ?_⟩
    · rw [heq]
      exact searchFd_found r (fun x hx => ⟨fun hxfd => hnull ⟨x, hx, hxfd⟩, hne x hx⟩) hfd
    · obtain ⟨x, hx, hkey⟩ := List.mem_map.mp ((hfront _).mp hin)
      obtain ⟨rfl, -⟩ := Prod.mk.inj hkey
      exact hnull ⟨x, hx, (hhandle x hx).mpr hcb⟩

/-! ## Reachable lists -/

/-- Descriptors that were opened are not negative. -/
def SvcXprt.FdsOpened (xprt : SvcXprt δ) : Prop :=
  ∀ svc ∈ xprt.servers, ∀ fd, svc.fd = some fd → 0 ≤ fd

theorem svcStep_fdsOpened [DecidableEq δ] (xprt : SvcXprt δ) (c : SvcCall δ) (hinv : xprt.Inv)
    (h : xprt.FdsOpened) : (svcStep xprt c).FdsOpened := by
  cases c with
  | register prog vers dispatch io =>
      rcases svcRegister_cases xprt prog vers dispatch io with
        ⟨hsame, -⟩ | ⟨-, -, hnew⟩ | ⟨-, hcb, hok, hnew⟩
      · rw [svcStep, hsame]
        exact h
      · rw [svcStep, hnew]
        refine List.forall_mem_cons.mpr ⟨fun fd hfd => ?_, h⟩
        cases hfd
      · rw [svcStep, hnew]
        refine List.forall_mem_cons.mpr ⟨fun fd hfd => ?_, h⟩
        obtain rfl := Option.some.inj hfd
        exact (hok.resolve_left (by simp [hcb])).1
  | unregister prog vers ioctl =>
      rcases svcUnregister_cases hinv.addrs prog vers with
        ⟨-, hsame⟩ | ⟨l, svc, r, -, -, heq, hrest⟩
      · rw [svcStep, hsame]
        exact h
      · rw [svcStep, hrest]
        refine fun x hx => h x ?_
        rw [heq]
        exact List.perm_middle.mem_iff.mpr (List.mem_cons_of_mem svc hx)

theorem run_fdsOpened [DecidableEq δ] {calls : List (SvcCall δ)}
    (h : AllSteps svcStep (fun xprt c => c.Fresh xprt) (SvcXprt.empty δ) calls) :
    (runFrom svcStep (SvcXprt.empty δ) calls).Inv
      ∧ (runFrom svcStep (SvcXprt.empty δ) calls).FdsOpened := by
  refine AllSteps.run_inv (I := fun xprt => xprt.Inv ∧ xprt.FdsOpened) (fun xprt c hxprt hc => ?_)
    ⟨SvcXprt.empty_inv, by simp [SvcXprt.FdsOpened, SvcXprt.empty]⟩ h
  exact ⟨svcStep_inv xprt c hxprt.1 hc, svcStep_fdsOpened xprt c hxprt.1 hxprt.2⟩

/-- The descriptors of the list are among those of a round. -/
theorem fd_mem_round {xprt : SvcXprt δ} (h : xprt.Inv) (hopened : xprt.FdsOpened)
    {svc : ServerEntry δ} (hsvc : svc ∈ xprt.servers) {fd : Int} (hfd : svc.fd = some fd) :
    ∃ n : Nat, (n : Int) = fd ∧ n ∈ List.range (xprt.maxFd + 1).toNat := by
  have hlo := hopened svc hsvc fd hfd
  have hhi := h.maxFd svc hsvc fd hfd
  refine ⟨fd.toNat, by omega, List.mem_range.mpr ?_⟩
  omega

/-- **The search for ready descriptors.** After every sequence of registrations
and removals and for every set of ready descriptors, a round reaches the owner
of each of them and no null pointer if and only if no callback client was
registered after the owner of one of them and is still there. -/
theorem search_safe_iff [DecidableEq δ] (calls : List (SvcCall δ))
    (h : AllSteps svcStep (fun xprt c => c.Fresh xprt) (SvcXprt.empty δ) calls) (rfds : Int → Bool)
    (hrfds : ∀ fd, rfds fd = true → (runFrom svcStep (SvcXprt.empty δ) calls).fdset fd = true) :
    (runFrom svcStep (SvcXprt.empty δ) calls).SearchSafe rfds ↔
      ∀ svc ∈ (runFrom svcStep (SvcXprt.empty δ) calls).servers, ∀ fd,
        svc.fd = some fd → rfds fd = true →
          ∀ prog vers, isCallback prog = true → ¬ RegisteredLater (prog, vers) svc.key calls := by
  obtain ⟨hinv, hopened⟩ := run_fdsOpened h
  simp only [← inFront_run h]
  generalize runFrom svcStep (SvcXprt.empty δ) calls = xprt at hrfds hinv hopened ⊢
  constructor
  · intro hsafe svc hsvc fd hfd hready prog vers hcb hfront
    rcases searchFd_owner hinv hsvc hfd with ⟨hnull, -⟩ | ⟨-, hnone⟩
    · obtain ⟨n, rfl, hn⟩ := fd_mem_round hinv hopened hsvc hfd
      exact (hsafe fun _ => true).1 (searchFds_nullXdr hn hready hnull)
    · exact hnone prog vers hcb hfront
  · intro hnone read
    have howner : ∀ fd, rfds fd = true →
        ∃ svc ∈ xprt.servers, svc.fd = some fd ∧ searchFd fd xprt.servers = .found svc := by
      intro fd hready
      obtain ⟨svc, hsvc, -, hfd⟩ := (hinv.consistent.fdset fd).mp (hrfds fd hready)
      refine ⟨svc, hsvc, hfd, ?_⟩
      rcases searchFd_owner hinv hsvc hfd with ⟨-, prog, vers, hcb, hfront⟩ | ⟨hfound, -⟩
      · exact absurd hfront (hnone svc hsvc fd hfd hready prog vers hcb)
      · exact hfound
    have hfound : ∀ n ∈ List.range (xprt.maxFd + 1).toNat, rfds n = true →
        ∃ svc, searchFd n xprt.servers = .found svc := by
      intro n _ hready
      obtain ⟨svc, -, -, hfound⟩ := howner n hready
      exact ⟨svc, hfound⟩
    obtain ⟨hend, hreached⟩ := searchFds_found read hfound
    refine ⟨hend, fun hdone fd hready => ?_⟩
    obtain ⟨svc, hsvc, hfd, hfound⟩ := howner fd hready
    obtain ⟨n, rfl, hn⟩ := fd_mem_round hinv hopened hsvc hfd
    exact ⟨svc, hsvc, hfd, hreached hdone n hn hready svc hfound⟩

/-- A callback client, and a server with the descriptor 5 behind it. -/
def callbackFirst : List (SvcCall Nat) :=
  [.register 0x3100001d 1 11 ⟨101, -1, 0⟩, .register 0x3000005b 1 10 ⟨100, 5, 0⟩]

/-- The server is found in front of the client. -/
theorem callbackFirst_safe :
    (runFrom svcStep (SvcXprt.empty Nat) callbackFirst).SearchSafe fun fd => fd = 5 := by
  refine (search_safe_iff callbackFirst (by decide) (fun fd => fd = 5) ?_).mpr ?_
  · intro fd hfd
    obtain rfl := of_decide_eq_true hfd
    decide
  · rintro svc - fd - - prog vers hcb ⟨before, c, after, heq, ⟨hins, -, hsince⟩, -⟩
    cases before with
    | nil => exact since_nil _ _ hsince
    | cons d before =>
        rw [callbackFirst, List.cons_append] at heq
        obtain ⟨-, hrest⟩ := List.cons.inj heq
        have hmem : c ∈ before ++ c :: after := by simp
        rw [← hrest, List.mem_singleton] at hmem
        subst hmem
        obtain ⟨⟨rfl, -⟩, -⟩ := hins
        exact absurd hcb (by decide)

/-- The same two, registered the other way round. -/
def serverFirst : List (SvcCall Nat) := callbackFirst.reverse

/-- When the server becomes ready, the search ends at the client's null pointer. -/
theorem callback_in_front_of_server :
    let xprt := runFrom svcStep (SvcXprt.empty Nat) serverFirst
    AllSteps svcStep (fun xprt c => c.Fresh xprt) (SvcXprt.empty Nat) serverFirst
      ∧ xprt.fdset 5 = true
      ∧ (xprt.searchRound (fun _ => true) fun fd => fd = 5).2 = .nullXdr
      ∧ ¬ xprt.SearchSafe fun fd => fd = 5 := by
  have hround : ((runFrom svcStep (SvcXprt.empty Nat) serverFirst).searchRound (fun _ => true)
      fun fd => fd = 5).2 = .nullXdr := by decide
  exact ⟨by decide, by decide, hround, fun h => (h fun _ => true).1 hround⟩

end HtcLeo
