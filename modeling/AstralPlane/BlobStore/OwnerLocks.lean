/-
  The owner locks of the blob store.

  `_OwnerLockTable` has a lock for each owner that anybody uses, with a count of
  its users, and deletes it with the last of them.  A step is one critical section
  of the guard, one operation on a lock object, or one access to the flag of a
  token.  Whoever will deregister from an owner has a stake in it: a token not yet
  released, and a thread between its registration and its deregistration.
  `Backed` says that the table is the account of the stakes.

  `_OwnerLockToken.release` tests its flag and sets it in two steps, under no lock:
  two threads that release one token at once both go on to the table, and the
  second one releases somebody else's lock (`released_by_two`).
-/
import Mathlib.Data.Multiset.Filter
import AstralPlane.Keyed
import AstralPlane.Threads

namespace AstralPlane.BlobStore

open Multiset

/-! ## Model -/

/-- `(lock, references)` of `_entries`; a lock object is the place where it was allocated. -/
structure Entry where
  lock : ℕ
  references : ℕ
  deriving DecidableEq

structure Token where
  owner : String
  /-- The lock object under which the token was made, which the source does not keep. -/
  lock : ℕ
  released : Bool
  deriving DecidableEq

inductive Fault
  | corrupted     -- "blob owner-lock bookkeeping was corrupted"
  | missing       -- the `KeyError` of `_entries[owner]`
  | unlocked      -- the `RuntimeError` of the release of an unlocked lock
  | crossProcess  -- what the cross-process lock of the token raised
  deriving DecidableEq

structure Shared where
  entries : Keyed String Entry := ∅
  /-- The lock objects, locked or not. -/
  locks : List Bool := []
  tokens : List Token := []
  deriving DecidableEq

/-- Where a thread is. -/
inductive Phase
  | idle
  | raised (fault : Fault)
  /-- in `acquire`, before `lock.acquire()` -/
  | waiting (owner : String) (lock : ℕ)
  /-- in `try_acquire`, before `lock.acquire(blocking=False)` -/
  | trying (owner : String) (lock : ℕ)
  /-- in `try_acquire`, before its second critical section -/
  | backing (owner : String) (lock : ℕ)
  /-- in `release` of the token, whose flag it has seen unset -/
  | tested (token : ℕ)
  /-- in `_table.release`, before its first critical section -/
  | marked (token : Token) (failed : Bool)
  /-- in `_table.release`, before `lock.release()` -/
  | unlocking (token : Token) (lock : ℕ) (failed : Bool)
  /-- in `_table.release`, before its second critical section -/
  | leaving (token : Token) (lock : ℕ) (failed : Bool)
  deriving DecidableEq

def Phase.isFree : Phase → Bool
  | .idle | .raised _ => true
  | _ => false

/-- The first critical section of `acquire` and of `try_acquire`. -/
def Shared.register (sh : Shared) (owner : String) : Shared × ℕ :=
  let e := (sh.entries.lookup owner).getD ⟨sh.locks.length, 0⟩
  ({ sh with
      locks := sh.locks ++ [false]
      entries := sh.entries.insert owner ⟨e.lock, e.references + 1⟩ }, e.lock)

/-- The last critical section of `try_acquire` and of `release`. -/
def Shared.deregister (sh : Shared) (owner : String) (lock : ℕ) : Except Fault Shared :=
  match sh.entries.lookup owner with
  | none => .error .missing
  | some e =>
    if e.lock ≠ lock ∨ e.references < 1 then .error .corrupted
    else if e.references = 1 then .ok { sh with entries := sh.entries.erase owner }
    else .ok { sh with entries := sh.entries.insert owner ⟨lock, e.references - 1⟩ }

def Shared.grant (sh : Shared) (owner : String) (lock : ℕ) : Shared :=
  { sh with locks := sh.locks.set lock true, tokens := sh.tokens ++ [⟨owner, lock, false⟩] }

/-- What a thread is to do: begin a call, or go on with the one that it is in. -/
inductive Move
  | acquire (owner : String)
  | tryAcquire (owner : String)
  | release (token : ℕ)
  /-- `failed`: a cross-process lock that is released now raises. -/
  | next (failed : Bool)
  deriving DecidableEq

/-- The call goes on; `none` where it waits. -/
def Shared.next (sh : Shared) (failed : Bool) : Phase → Option (Shared × Phase)
  | .waiting owner lock =>
    if sh.locks[lock]? = some false then some (sh.grant owner lock, .idle) else none
  | .trying owner lock =>
    if sh.locks[lock]? = some false then some (sh.grant owner lock, .idle)
    else some (sh, .backing owner lock)
  | .backing owner lock =>
    match sh.deregister owner lock with
    | .ok sh' => some (sh', .idle)
    | .error e => some (sh, .raised e)
  | .tested k =>
    sh.tokens[k]?.map fun t =>
      ({ sh with tokens := sh.tokens.set k { t with released := true } }, .marked t failed)
  | .marked t failed =>
    match sh.entries.lookup t.owner with
    | none => some (sh, .raised .missing)
    | some e => some (sh, .unlocking t e.lock failed)
  | .unlocking t lock failed =>
    if sh.locks[lock]? = some true then
      some ({ sh with locks := sh.locks.set lock false }, .leaving t lock failed)
    else some (sh, .raised .unlocked)
  | .leaving t lock failed =>
    match sh.deregister t.owner lock with
    | .ok sh' => some (sh', if failed then .raised .crossProcess else .idle)
    | .error e => some (sh, .raised e)
  | .idle | .raised _ => none

/-- One step of a thread; owners are told apart up to `casefold`. -/
def step (casefold : String → String) (m : Move) (sh : Shared) (p : Phase) : Option (Shared × Phase) :=
  match m with
  | .next failed => sh.next failed p
  | .acquire owner => if p.isFree then
      some ((sh.register (casefold owner)).1, .waiting (casefold owner) (sh.register (casefold owner)).2)
    else none
  | .tryAcquire owner => if p.isFree then
      some ((sh.register (casefold owner)).1, .trying (casefold owner) (sh.register (casefold owner)).2)
    else none
  | .release k => if p.isFree then
      sh.tokens[k]?.map fun t => (sh, if t.released then .idle else .tested k)
    else none

abbrev State := Threads Shared Phase

def State.initial (n : ℕ) : State := ⟨{}, List.replicate n .idle⟩

def Shared.hasEntries (sh : Shared) : Bool := !sh.entries.entries.isEmpty

/-! ## Stakes -/

structure Stake where
  owner : String
  lock : ℕ
  /-- the lock is held -/
  holding : Bool
  deriving DecidableEq

def Token.stake (t : Token) : Option Stake := if t.released then none else some ⟨t.owner, t.lock, true⟩

def Phase.stake : Phase → Option Stake
  | .waiting owner lock | .trying owner lock | .backing owner lock => some ⟨owner, lock, false⟩
  | .marked t _ => some ⟨t.owner, t.lock, true⟩
  | .unlocking t lock _ => some ⟨t.owner, lock, true⟩
  | .leaving t lock _ => some ⟨t.owner, lock, false⟩
  | .idle | .raised _ | .tested _ => none

/-- All who will deregister from an owner. -/
def stakes (tokens : List Token) (phases : Multiset Phase) : Multiset Stake :=
  (tokens.filterMap Token.stake : Multiset Stake) + phases.filterMap Phase.stake

def stakesIn (S : Multiset Stake) (o : String) : Multiset Stake := S.filter (·.owner = o)

section
variable {S F : Multiset Stake} {k : Stake} {o : String} {l : ℕ} {b : Bool} {e : Entry}
  {state : Option Bool}

@[simp] theorem stakesIn_cons_self : stakesIn (⟨o, l, b⟩ ::ₘ S) o = ⟨o, l, b⟩ ::ₘ stakesIn S o :=
  filter_cons_of_pos _ rfl

theorem stakesIn_cons_of_ne (h : o ≠ k.owner) : stakesIn (k ::ₘ S) o = stakesIn S o :=
  filter_cons_of_neg _ (Ne.symm h)

theorem mem_stakesIn : k ∈ stakesIn S o ↔ k ∈ S ∧ k.owner = o := mem_filter

/-- The entry of an owner, with the state of its lock, is the account of the stakes in the owner. -/
structure Account (state : Option Bool) (F : Multiset Stake) (e : Entry) : Prop where
  count : e.references = F.card
  used : 1 ≤ e.references
  lock : ∀ k ∈ F, k.lock = e.lock
  held : ∃ b : Bool, state = some b ∧ F.countP (·.holding) = b.toNat

theorem Account.new (o : String) (l : ℕ) : Account (some false) {⟨o, l, false⟩} ⟨l, 1⟩ where
  count := rfl
  used := Nat.le_refl 1
  lock k hk := by rw [mem_singleton.1 hk]
  held := ⟨false, rfl, rfl⟩

theorem Account.join (h : Account state F e) :
    Account state (⟨o, e.lock, false⟩ ::ₘ F) ⟨e.lock, e.references + 1⟩ where
  count := by simp [h.count]
  used := Nat.le_add_left 1 _
  lock := forall_mem_cons.2 ⟨rfl, h.lock⟩
  held := by simpa using h.held

/-- The lock is taken, or released. -/
theorem Account.turn (h : Account (some !b) (⟨o, l, !b⟩ ::ₘ F) e) :
    Account (some b) (⟨o, l, b⟩ ::ₘ F) e where
  count := by simpa using h.count
  used := h.used
  lock := forall_mem_cons.2 (forall_mem_cons.1 h.lock)
  held := by
    obtain ⟨b', hb', hcount⟩ := h.held
    cases b <;> simp_all

/-- A stake is given back, which is not the last one. -/
theorem Account.leave (h : Account state (⟨o, l, false⟩ ::ₘ F) e) (hlast : e.references ≠ 1) :
    Account state F ⟨l, e.references - 1⟩ where
  count := by simp [h.count]
  used := by
    have := h.used
    dsimp only
    omega
  lock k hk := by
    rw [h.lock k (mem_cons_of_mem hk), ← h.lock _ (mem_cons_self _ _)]
  held := by simpa using h.held

end

/-- The table is the account of the stakes. -/
structure Backed (entries : Keyed String Entry) (locks : List Bool) (S : Multiset Stake) : Prop where
  absent : ∀ o, entries.lookup o = none → stakesIn S o = 0
  account : ∀ o e, entries.lookup o = some e → Account locks[e.lock]? (stakesIn S o) e
  distinct : ∀ o o' e e', entries.lookup o = some e → entries.lookup o' = some e' →
    e.lock = e'.lock → o = o'

section
variable {entries : Keyed String Entry} {locks : List Bool} {S : Multiset Stake} {o : String}
  {l : ℕ} {e : Entry} {b : Bool}

theorem Backed.entry {k : Stake} (h : Backed entries locks S) (hk : k ∈ S) :
    ∃ e, entries.lookup k.owner = some e ∧ k.lock = e.lock := by
  have hmem : k ∈ stakesIn S k.owner := mem_stakesIn.2 ⟨hk, rfl⟩
  rcases he : entries.lookup k.owner with _ | e
  · rw [h.absent _ he] at hmem
    exact absurd hmem (notMem_zero _)
  · exact ⟨e, rfl, (h.account _ e he).lock k hmem⟩

theorem Backed.bound (h : Backed entries locks S) (he : entries.lookup o = some e) :
    e.lock < locks.length := by
  obtain ⟨b, hb, -⟩ := (h.account o e he).held
  exact (List.getElem?_eq_some_iff.1 hb).1

/-- What is done to one owner leaves the accounts of the others. -/
theorem Backed.update {entries' : Keyed String Entry} {locks' : List Bool} {S' : Multiset Stake}
    (h : Backed entries locks S) (hentries : ∀ a, a ≠ o → entries'.lookup a = entries.lookup a)
    (hstakes : ∀ a, a ≠ o → stakesIn S' a = stakesIn S a)
    (hlocks : ∀ a ea, a ≠ o → entries.lookup a = some ea → locks'[ea.lock]? = locks[ea.lock]?)
    (habsent : entries'.lookup o = none → stakesIn S' o = 0)
    (haccount : ∀ e, entries'.lookup o = some e → Account locks'[e.lock]? (stakesIn S' o) e ∧
      ∀ a ea, entries.lookup a = some ea → ea.lock = e.lock → a = o) :
    Backed entries' locks' S' where
  absent a ha := by
    by_cases hne : a = o
    · exact hne ▸ habsent (hne ▸ ha)
    · rw [hstakes a hne]
      exact h.absent a (hentries a hne ▸ ha)
  account a ea ha := by
    by_cases hne : a = o
    · subst hne
      exact (haccount ea ha).1
    · rw [hentries a hne] at ha
      rw [hstakes a hne, hlocks a ea hne ha]
      exact h.account a ea ha
  distinct a a' ea ea' ha ha' hlock := by
    by_cases hne : a = o <;> by_cases hne' : a' = o
    · rw [hne, hne']
    · rw [hentries a' hne'] at ha'
      exact absurd ((haccount ea (hne ▸ ha)).2 a' ea' ha' hlock.symm) hne'
    · rw [hentries a hne] at ha
      exact absurd ((haccount ea' (hne' ▸ ha')).2 a ea ha hlock) hne
    · exact h.distinct a a' ea ea' (hentries a hne ▸ ha) (hentries a' hne' ▸ ha') hlock

theorem Backed.join (h : Backed entries locks S)
    (he : (entries.lookup o).getD ⟨locks.length, 0⟩ = e) :
    Backed (entries.insert o ⟨e.lock, e.references + 1⟩) (locks ++ [false])
      (⟨o, e.lock, false⟩ ::ₘ S) := by
  refine h.update (fun a hne => AList.lookup_insert_ne hne) (fun a hne => stakesIn_cons_of_ne hne)
    (fun a ea _ ha => List.getElem?_append_left (h.bound ha)) (by simp) fun e' he' => ?_
  rw [AList.lookup_insert] at he'
  cases he'
  rw [stakesIn_cons_self]
  rcases hlookup : entries.lookup o with _ | eo <;> simp only [hlookup,
    Option.getD] at he <;> subst he
  · -- the lock object has just been allocated
    rw [h.absent o hlookup, List.getElem?_concat_length]
    exact ⟨.new o _, fun a ea ha heq => absurd (h.bound ha) (by simp [heq])⟩
  · rw [List.getElem?_append_left (h.bound hlookup)]
    exact ⟨(h.account o eo hlookup).join, fun a ea ha heq => h.distinct a o ea eo ha hlookup heq⟩

theorem Backed.turn (h : Backed entries locks (⟨o, l, !b⟩ ::ₘ S)) (hl : locks[l]? = some !b) :
    Backed entries (locks.set l b) (⟨o, l, b⟩ ::ₘ S) := by
  obtain ⟨eo, heo, hlock⟩ := h.entry (mem_cons_self _ _)
  dsimp only at heo hlock
  have hown : ∀ a ea, entries.lookup a = some ea → ea.lock = eo.lock → a = o :=
    fun a ea ha heq => h.distinct a o ea eo ha heo heq
  refine h.update (fun _ _ => rfl)
    (fun a hne => by rw [stakesIn_cons_of_ne hne, stakesIn_cons_of_ne hne])
    (fun a ea hne ha => List.getElem?_set_ne fun heq => hne (hown a ea ha (by rw [← heq, hlock])))
    (fun hnone => by rw [heo] at hnone; cases hnone) fun e he => ?_
  cases heo.symm.trans he
  have hacc := h.account o eo heo
  rw [← hlock, hl, stakesIn_cons_self] at hacc
  rw [← hlock, List.getElem?_set_self (List.getElem?_eq_some_iff.1 hl).1, stakesIn_cons_self]
  exact ⟨hacc.turn, hlock ▸ hown⟩

theorem Backed.locked (h : Backed entries locks S) (hk : (⟨o, l, true⟩ : Stake) ∈ S) :
    locks[l]? = some true := by
  obtain ⟨e, he, hlock⟩ := h.entry hk
  obtain ⟨b, hb, hcount⟩ := (h.account o e he).held
  have hpos : 0 < (stakesIn S o).countP (·.holding) :=
    countP_pos.2 ⟨_, mem_stakesIn.2 ⟨hk, rfl⟩, rfl⟩
  rw [hcount] at hpos
  cases b with
  | false => exact absurd hpos (Nat.lt_irrefl 0)
  | true => exact (congrArg (locks[·]?) hlock).trans hb

theorem Backed.leave (h : Backed entries locks (⟨o, l, false⟩ ::ₘ S)) :
    ∃ e, entries.lookup o = some e ∧ e.lock = l ∧ 1 ≤ e.references ∧
      Backed (if e.references = 1 then entries.erase o
        else entries.insert o ⟨l, e.references - 1⟩) locks S := by
  obtain ⟨e, he, hlock⟩ := h.entry (mem_cons_self _ _)
  dsimp only at he hlock
  have hacc := h.account o e he
  rw [stakesIn_cons_self] at hacc
  refine ⟨e, he, hlock.symm, hacc.used, h.update (fun a hne => ?_)
    (fun a hne => (stakesIn_cons_of_ne hne).symm) (fun _ _ _ _ => rfl) (fun hnone => ?_)
    fun e' he' => ?_⟩
  · split
    · exact AList.lookup_erase_ne hne
    · exact AList.lookup_insert_ne hne
  · -- the entry goes with the last stake
    split at hnone
    · have hcount := hacc.count
      rw [‹e.references = 1›, card_cons] at hcount
      exact card_eq_zero.1 (Nat.succ.inj hcount).symm
    · rw [AList.lookup_insert] at hnone
      cases hnone
  · split at he'
    · rw [AList.lookup_erase] at he'
      cases he'
    · rw [AList.lookup_insert] at he'
      cases he'
      exact ⟨hlock ▸ hacc.leave ‹_›, fun a ea ha heq => h.distinct a o ea e ha he (heq.trans hlock)⟩

end

/-! ## Steps -/

variable {tokens : List Token}

theorem stakes_none {p : Phase} {rest : Multiset Phase} (h : p.stake = none) :
    stakes tokens (p ::ₘ rest) = stakes tokens rest := by
  rw [stakes, filterMap_cons_none _ _ h, stakes]

theorem stakes_some {p : Phase} {rest : Multiset Phase} {k : Stake}
    (h : p.stake = some k) : stakes tokens (p ::ₘ rest) = k ::ₘ stakes tokens rest := by
  rw [stakes, filterMap_cons_some _ _ _ h, add_cons, stakes]

/-- The table is in order, and no token is being released twice. -/
structure Sound (sh : Shared) (phases : Multiset Phase) : Prop where
  backed : Backed sh.entries sh.locks (stakes sh.tokens phases)
  tests : ∀ k, .tested k ∈ phases → ∃ t, sh.tokens[k]? = some t ∧ t.released = false
  once : ∀ k, phases.count (.tested k) ≤ 1
  faults : ∀ f, .raised f ∈ phases → f = .crossProcess

/-- The phase tests no flag and has raised nothing of the table's. -/
def Phase.isPlain : Phase → Bool
  | .tested _ => false
  | .raised f => f = .crossProcess
  | _ => true

section
variable {sh sh' : Shared} {p q : Phase} {rest : Multiset Phase} {o : String} {l : ℕ}

theorem Sound.staked {k : Stake} (h : Sound sh (p ::ₘ rest)) (hp : p.stake = some k) :
    Backed sh.entries sh.locks (k ::ₘ stakes sh.tokens rest) := stakes_some hp ▸ h.backed

section
variable (h : Sound sh (p ::ₘ rest))
include h

theorem Sound.unstaked (hp : p.stake = none) :
    Backed sh.entries sh.locks (stakes sh.tokens rest) := stakes_none hp ▸ h.backed

/-- A step of a thread keeps what is said of the others. -/
theorem Sound.update (hbacked : Backed sh'.entries sh'.locks (stakes sh'.tokens (q ::ₘ rest)))
    (htokens : ∀ k t, .tested k ∈ rest → sh.tokens[k]? = some t → sh'.tokens[k]? = some t)
    (hq : q.isPlain) : Sound sh' (q ::ₘ rest) where
  backed := hbacked
  tests k hk := by
    rcases mem_cons.1 hk with rfl | hk
    · cases hq
    · obtain ⟨t, ht, hreleased⟩ := h.tests k (mem_cons_of_mem hk)
      exact ⟨t, htokens k t hk ht, hreleased⟩
  once k := by
    have hne : Phase.tested k ≠ q := by rintro rfl; cases hq
    rw [count_cons_of_ne hne]
    exact (count_le_count_cons _ _ _).trans (h.once k)
  faults f hf := by
    rcases mem_cons.1 hf with rfl | hf
    · simpa [Phase.isPlain] using hq
    · exact h.faults f (mem_cons_of_mem hf)

theorem Sound.register (hp : p.stake = none) (hq : q.isPlain)
    (hstake : q.stake = some ⟨o, (sh.register o).2, false⟩) :
    Sound (sh.register o).1 (q ::ₘ rest) := by
  refine h.update ?_ (fun _ _ _ ht => ht) hq
  rw [stakes_some hstake]
  exact (h.unstaked hp).join rfl

theorem Sound.grant (hp : p.stake = some ⟨o, l, false⟩)
    (hl : sh.locks[l]? = some false) : Sound (sh.grant o l) (.idle ::ₘ rest) := by
  refine h.update ?_ (fun k t _ ht => ?_) rfl
  · have htokens : stakes (sh.grant o l).tokens (.idle ::ₘ rest) =
        ⟨o, l, true⟩ ::ₘ stakes sh.tokens rest := by
      rw [stakes_none rfl, stakes, stakes, ← cons_add, cons_coe]
      congr 1
      exact coe_eq_coe.2 (by simp [Shared.grant, Token.stake])
    rw [htokens]
    exact (h.staked hp).turn (b := true) hl
  · exact (List.getElem?_append_left (List.getElem?_eq_some_iff.1 ht).1).trans ht

theorem Sound.deregister (hp : p.stake = some ⟨o, l, false⟩)
    (hq : q.isPlain) (hstake : q.stake = none) :
    ∃ sh', sh.deregister o l = .ok sh' ∧ Sound sh' (q ::ₘ rest) := by
  obtain ⟨e, he, hlock, hused, hrest⟩ := (h.staked hp).leave
  have hguard : ¬ (e.lock ≠ l ∨ e.references < 1) := by omega
  rw [Shared.deregister, he]
  dsimp only
  rw [if_neg hguard]
  split at hrest <;> rename_i hlast
  · rw [if_pos hlast]
    exact ⟨_, rfl, h.update (by rwa [stakes_none hstake]) (fun _ _ _ ht => ht) hq⟩
  · rw [if_neg hlast]
    exact ⟨_, rfl, h.update (by rwa [stakes_none hstake]) (fun _ _ _ ht => ht) hq⟩

end

/-- A thread sees the flag of a token unset, which no other thread has done. -/
theorem Sound.test {k : ℕ} {t : Token} (h : Sound sh (p ::ₘ rest)) (hp : p.stake = none)
    (ht : sh.tokens[k]? = some t) (hreleased : t.released = false) (hnone : .tested k ∉ rest) :
    Sound sh (.tested k ::ₘ rest) where
  backed := by
    rw [stakes_none rfl]
    exact h.unstaked hp
  tests k' hk' := by
    rcases mem_cons.1 hk' with heq | hk'
    · cases heq
      exact ⟨t, ht, hreleased⟩
    · exact h.tests k' (mem_cons_of_mem hk')
  once k' := by
    by_cases hk : k' = k
    · rw [hk, count_cons_self, count_eq_zero.2 hnone]
    · rw [count_cons_of_ne (fun heq => hk (Phase.tested.inj heq))]
      exact (count_le_count_cons _ _ _).trans (h.once k')
  faults f hf := by
    rcases mem_cons.1 hf with heq | hf
    · cases heq
    · exact h.faults f (mem_cons_of_mem hf)

/-- The flag of a token is set by the one thread that has seen it unset. -/
theorem Sound.mark {k : ℕ} {t : Token} {failed : Bool} (h : Sound sh (.tested k ::ₘ rest))
    (ht : sh.tokens[k]? = some t) :
    Sound { sh with tokens := sh.tokens.set k { t with released := true } }
      (.marked t failed ::ₘ rest) := by
  have hother : .tested k ∉ rest := by
    have := h.once k
    rw [count_cons_self] at this
    exact count_eq_zero.1 (by omega)
  obtain ⟨t', ht', hreleased⟩ := h.tests k (mem_cons_self _ _)
  cases ht.symm.trans ht'
  obtain ⟨hk, hget⟩ := List.getElem?_eq_some_iff.1 ht
  refine h.update ?_ (fun k' t' hk' ht' => ?_) rfl
  · -- the stake goes over from the token to the thread
    have hbacked := h.unstaked rfl
    have hbefore : (sh.tokens : Multiset Token) = t ::ₘ (sh.tokens.eraseIdx k : Multiset Token) :=
      coe_eq_coe.2 (hget ▸ (List.getElem_cons_eraseIdx_perm hk).symm)
    have hafter : (sh.tokens.set k { t with released := true } : Multiset Token) =
        { t with released := true } ::ₘ (sh.tokens.eraseIdx k : Multiset Token) :=
      coe_eq_coe.2 (List.set_perm_cons_eraseIdx hk _)
    rw [stakes_some rfl]
    simp only [stakes, ← filterMap_coe, hbefore, hafter] at hbacked ⊢
    rwa [filterMap_cons_some _ _ _ (b := ⟨t.owner, t.lock, true⟩) (by simp [Token.stake, hreleased]),
      cons_add] at hbacked
  · have hne : k ≠ k' := by rintro rfl; exact hother hk'
    rwa [List.getElem?_set_ne hne]

theorem Sound.next {failed : Bool} (h : Sound sh (p ::ₘ rest))
    (hstep : sh.next failed p = some (sh', q)) : Sound sh' (q ::ₘ rest) := by
  cases p with
  | idle | raised => cases hstep
  | waiting =>
    simp only [Shared.next] at hstep
    split at hstep <;> cases hstep
    exact h.grant rfl ‹_›
  | trying =>
    simp only [Shared.next] at hstep
    split at hstep <;> cases hstep
    · exact h.grant rfl ‹_›
    · exact h.update (by rw [stakes_some rfl]; exact h.staked rfl) (fun _ _ _ ht => ht) rfl
  | backing =>
    obtain ⟨sh1, hok, hsound⟩ := h.deregister (q := .idle) rfl rfl rfl
    simp only [Shared.next, hok] at hstep
    cases hstep
    exact hsound
  | tested =>
    obtain ⟨t, ht, heq⟩ := Option.map_eq_some_iff.1 hstep
    cases heq
    exact h.mark ht
  | marked =>
    obtain ⟨e, he, hlock⟩ := (h.staked rfl).entry (mem_cons_self _ _)
    simp only [Shared.next, he] at hstep
    cases hstep
    refine h.update ?_ (fun _ _ _ ht => ht) rfl
    rw [stakes_some rfl, ← hlock]
    exact h.staked rfl
  | unlocking =>
    have hl := (h.staked rfl).locked (mem_cons_self _ _)
    simp only [Shared.next, hl, if_true] at hstep
    cases hstep
    refine h.update ?_ (fun _ _ _ ht => ht) rfl
    rw [stakes_some rfl]
    exact (h.staked rfl).turn (b := false) hl
  | leaving t l failed =>
    obtain ⟨sh1, hok, hsound⟩ := h.deregister (q := if failed then .raised .crossProcess else .idle)
      rfl (by cases failed <;> rfl) (by cases failed <;> rfl)
    simp only [Shared.next, hok] at hstep
    cases hstep
    exact hsound

theorem Phase.stake_of_isFree (h : p.isFree) : p.stake = none := by
  cases p <;> first | rfl | cases h

end

/-! ## Runs -/

/-- Nobody tests the flag of a token that another thread has seen unset and not yet set. -/
def Calm (s : State) : Move → Prop
  | .release k => .tested k ∉ s.phases
  | _ => True

instance (s : State) : ∀ m, Decidable (Calm s m)
  | .release k => inferInstanceAs (Decidable (.tested k ∉ s.phases))
  | .acquire _ | .tryAcquire _ | .next _ => isTrue trivial

theorem Sound.move {casefold : String → String} {s : State} {m : Move} (i : ℕ)
    (h : Sound s.shared s.phases) (hcalm : Calm s m) :
    Sound (s.move (step casefold m) i).shared (s.move (step casefold m) i).phases := by
  refine Threads.move_keeps (P := Sound) (fun {sh p sh' q rest} hphases hshared hstep h => ?_) h
  cases m with
  | next => exact h.next hstep
  | acquire | tryAcquire =>
    simp only [step] at hstep
    split at hstep <;> cases hstep
    exact h.register (Phase.stake_of_isFree ‹_›) rfl rfl
  | release k =>
    simp only [step] at hstep
    split at hstep
    · rename_i hfree
      obtain ⟨t, ht, heq⟩ := Option.map_eq_some_iff.1 hstep
      cases hreleased : t.released <;> rw [hreleased] at heq <;> cases heq
      · refine h.test (Phase.stake_of_isFree hfree) ht hreleased fun hmem => hcalm ?_
        rw [← mem_coe, hphases]
        exact mem_cons_of_mem hmem
      · refine h.update ?_ (fun _ _ _ ht => ht) rfl
        rw [stakes_none rfl]
        exact h.unstaked (Phase.stake_of_isFree hfree)
    · cases hstep

theorem stakes_eq_zero {phases : List Phase}
    (htokens : ∀ t ∈ tokens, t.released) (hphases : ∀ p ∈ phases, p.isFree) :
    stakes tokens phases = 0 := by
  have hnone : tokens.filterMap Token.stake = [] :=
    List.filterMap_eq_nil_iff.2 fun t ht => if_pos (htokens t ht)
  have hnone' : phases.filterMap Phase.stake = [] :=
    List.filterMap_eq_nil_iff.2 fun p hp => Phase.stake_of_isFree (hphases p hp)
  rw [stakes, hnone, filterMap_coe, hnone']
  rfl

theorem sound_initial (n : ℕ) : Sound (State.initial n).shared (State.initial n).phases := by
  have hphases : ∀ p ∈ (State.initial n).phases, p = .idle := fun p hp => List.eq_of_mem_replicate hp
  have htested : ∀ k, .tested k ∉ ((State.initial n).phases : Multiset Phase) :=
    fun k hk => by cases hphases _ hk
  refine ⟨⟨fun o _ => ?_, ?_, ?_⟩, fun k hk => absurd hk (htested k), fun k => ?_, fun f hf => ?_⟩
  · rw [stakes_eq_zero (fun t ht => by cases ht) (fun p hp => by rw [hphases p hp]; rfl)]
    rfl
  · intro o e he
    cases he
  · intro o o' e e' he
    cases he
  · rw [count_eq_zero.2 (htested k)]
    exact Nat.zero_le 1
  · cases hphases _ hf

section
variable {sh : Shared} {phases : List Phase}

theorem Sound.holder (h : Sound sh phases) (o : String) :
    (stakesIn (stakes sh.tokens phases) o).countP (·.holding) ≤ 1 := by
  rcases he : sh.entries.lookup o with _ | e
  · rw [h.backed.absent o he]
    exact Nat.zero_le 1
  · obtain ⟨b, -, hcount⟩ := (h.backed.account o e he).held
    rw [hcount]
    exact Bool.toNat_le b

theorem unreleased_le (tokens : List Token) (phases : Multiset Phase) (o : String) :
    tokens.countP (fun t => t.owner = o && !t.released) ≤
      (stakesIn (stakes tokens phases) o).countP (·.holding) := by
  rw [stakesIn, countP_filter, stakes, countP_add, coe_countP,
    List.countP_filterMap]
  refine le_trans (List.countP_mono_left fun t _ ht => ?_) (Nat.le_add_right _ _)
  simp only [bool_to_prop, Bool.not_eq_true'] at ht
  simp [Token.stake, ht]

theorem Sound.empty (h : Sound sh phases) (htokens : ∀ t ∈ sh.tokens, t.released)
    (hphases : ∀ p ∈ phases, p.isFree) : sh.hasEntries = false := by
  rcases hentries : sh.entries.entries with _ | ⟨⟨o, e⟩, l⟩
  · rw [Shared.hasEntries, hentries]
    rfl
  · have he : sh.entries.lookup o = some e := Keyed.mem_entries.1 (by rw [hentries]; exact List.mem_cons_self)
    have hacc := h.backed.account o e he
    have hcount := hacc.count
    rw [stakes_eq_zero htokens hphases] at hcount
    exact absurd hacc.used (by rw [hcount]; exact Nat.not_succ_le_zero 0)

end

/-- **The table excludes**, in every run in which the tests of one token's flag do not overlap. -/
theorem owner_exclusion (casefold : String → String) (n : ℕ) (moves : List (ℕ × Move))
    (calm : Threads.Allowed (step casefold) Calm (State.initial n) moves) :
    let s := Threads.run (step casefold) moves (State.initial n)
    let users := stakesIn (stakes s.shared.tokens s.phases)
    -- an owner has one unreleased token at most, and one holder of its lock
    (∀ o, s.shared.tokens.countP (fun t => t.owner = o && !t.released) ≤ 1 ∧
      (users o).countP (·.holding) ≤ 1) ∧
    -- references are counted, and an entry is there as long as somebody uses it
    (∀ o e, s.shared.entries.lookup o = some e → e.references = (users o).card) ∧
    (∀ o, s.shared.entries.lookup o = none ↔ (users o).card = 0) ∧
    -- all users of an owner have its one lock object
    (∀ o e, s.shared.entries.lookup o = some e → ∀ k ∈ users o, k.lock = e.lock) ∧
    -- nothing of the bookkeeping is raised
    (∀ f, .raised f ∈ s.phases → f = .crossProcess) ∧
    -- a second release does nothing
    (∀ i k p t, s.phases[i]? = some p → p.isFree → s.shared.tokens[k]? = some t →
      t.released → s.move (step casefold (.release k)) i = ⟨s.shared, s.phases.set i .idle⟩) ∧
    -- and with all tokens released and no call under way the table is empty
    ((∀ t ∈ s.shared.tokens, t.released) → (∀ p ∈ s.phases, p.isFree) →
      s.shared.hasEntries = false) := by
  intro s
  have h : Sound s.shared s.phases := calm.keeps (P := fun s : State => Sound s.shared s.phases)
    (fun m _ hm hs => hs.move m.1 hm) (sound_initial n)
  refine ⟨fun o => ⟨(unreleased_le _ _ o).trans (h.holder o), h.holder o⟩,
    fun o e he => (h.backed.account o e he).count, fun o => ⟨fun ho => ?_, fun ho => ?_⟩,
    fun o e he => (h.backed.account o e he).lock, h.faults, ?_, h.empty⟩
  · rw [h.backed.absent o ho]
    rfl
  · rcases he : s.shared.entries.lookup o with _ | e
    · rfl
    · have hacc := h.backed.account o e he
      have hused := hacc.used
      rw [hacc.count, ho] at hused
      exact absurd hused (Nat.not_succ_le_zero 0)
  · intro i k p t hp hfree ht hreleased
    simp [Threads.move, hp, step, hfree, ht, hreleased]

/-- Two threads take turns at one owner, and a third one finds the lock taken. -/
def takingTurns : List (ℕ × Move) :=
  [(0, .acquire "owner"), (0, .next false), (1, .acquire "owner"), (2, .tryAcquire "owner"),
   (2, .next false), (0, .release 0), (0, .next false), (0, .next false), (0, .next false),
   (1, .next false), (2, .next false), (0, .next false), (0, .release 0)]

theorem owner_exclusion_turns :
    Threads.Allowed (step id) Calm (State.initial 3) takingTurns ∧
    ((Threads.run (step id) takingTurns (State.initial 3)).shared.entries.lookup "owner" =
      some ⟨0, 1⟩) ∧
    (Threads.run (step id) takingTurns (State.initial 3)).shared.tokens.countP
      (fun t => t.owner = "owner" && !t.released) ≤ 1 := by
  have calm : Threads.Allowed (step id) Calm (State.initial 3) takingTurns := by
    decide +kernel
  exact ⟨calm, by decide +kernel, ((owner_exclusion _ _ _ calm).1 "owner").1⟩

/-- Two threads release the first token at once, and both see its flag unset. -/
def overlap : List (ℕ × Move) :=
  [(0, .acquire "owner"), (0, .next false), (1, .acquire "owner"), (2, .release 0), (3, .release 0),
   -- the first of them lets the waiting thread in
   (2, .next false), (2, .next false), (2, .next false), (1, .next false),
   -- whose lock the second one releases
   (3, .next false), (3, .next false), (3, .next false), (0, .acquire "owner"), (0, .next false)]

/-- Then two threads hold the lock of one owner. -/
theorem released_by_two :
    (Threads.run (step id) overlap (State.initial 4)).shared.tokens.countP
      (fun t => t.owner = "owner" && !t.released) = 2 := by
  decide +kernel

end AstralPlane.BlobStore
