import Mathlib.Logic.Function.Basic
import RethBsc.Miner.Payload

/-!
# Authorizations to set code

`apply_eip7702_auth_list` of `src/evm/handler.rs`.  Before a transaction of type 4 runs, each entry
of its authorization list that passes the checks sets the code of the account that signed it.  An
entry that does not pass is skipped.  Accounts of the blacklist cannot sign.

* `applyAuthorization_cases`: what an entry of the list can do.
* `applyAuthList_frame`: a list changes code and nonce of accounts that may sign, and nothing else.
* `effective_once`: no authorization takes effect twice, in whatever transactions it is used.
-/

namespace RethBsc

open Rust

/-- Code that an account may have; `raw []` is that of an account without code. -/
inductive Bytecode where
  | raw (bytes : Bytes)
  | eip7702 (address : Address)
  deriving DecidableEq

namespace Bytecode

def isEmpty : Bytecode → Bool
  | .raw bytes => bytes.isEmpty
  | .eip7702 _ => false

def isEip7702 : Bytecode → Bool
  | .raw _ => false
  | .eip7702 _ => true

end Bytecode

/-- What the loop reads and writes of an account in the journal. -/
structure JournalAccount where
  balance : Nat
  nonce : UInt64
  code : Option Bytecode
  loadedAsNotExisting : Bool
  touched : Bool
  deriving DecidableEq

namespace JournalAccount

variable (account : JournalAccount)

/-- `Account::is_empty`: no balance, no nonce and no code. -/
def isEmpty : Bool :=
  account.balance == 0 && account.nonce == 0 && account.code.all Bytecode.isEmpty

def isLoadedAsNotExistingNotTouched : Bool := account.loadedAsNotExisting && !account.touched

end JournalAccount

/-- `authority` is the address that the signature recovers to, if it does. -/
structure Authorization where
  chainId : Nat
  address : Address
  nonce : UInt64
  authority : Option Address
  deriving DecidableEq

/-- The accounts of the journal. -/
abbrev Journal : Type := Address → JournalAccount

/-! ## The loop -/

section Apply

variable (loadError : Address → Option String) (chainId : UInt64)

/-- The checks of an entry; `none` is a `continue`.  Only the database can fail. -/
def checkAuthorization (journal : Journal) (authorization : Authorization) :
    Except String (Option Address) :=
  if authorization.chainId ≠ 0 ∧ authorization.chainId ≠ chainId.toNat then .ok none
  else if authorization.nonce = 0xffffffffffffffff then .ok none
  else
    match authorization.authority with
    | none => .ok none
    | some authority =>
      if isBlacklisted authority then .ok none
      else
        match loadError authority with
        | some error => .error error
        | none =>
          let account := journal authority
          if account.code.any fun code => !code.isEmpty && !code.isEip7702 then .ok none
          else if authorization.nonce ≠ account.nonce then .ok none
          else .ok (some authority)

/-- The account exists in the trie, so that part of the gas is refunded. -/
def refundsAuthority (account : JournalAccount) : Bool :=
  !(account.isEmpty && account.isLoadedAsNotExistingNotTouched)

/-- The zero address clears the code. -/
def delegate (journal : Journal) (authority address : Address) : Journal :=
  let account := journal authority
  Function.update journal authority
    { account with
      code := some (if address = .zero then .raw [] else .eip7702 address)
      nonce := saturatingAdd account.nonce 1
      touched := true }

/-- One turn of the loop, with the number of refunded accounts. -/
def applyAuthorization (state : Journal × UInt64) (authorization : Authorization) :
    Except String (Journal × UInt64) := do
  match ← checkAuthorization loadError chainId state.1 authorization with
  | none => pure state
  | some authority =>
    let refunded := if refundsAuthority (state.1 authority) then state.2 + 1 else state.2
    pure (delegate state.1 authority authorization.address, refunded)

def perEmptyAccountCost : UInt64 := 25000
def perAuthBaseCost : UInt64 := 12500

/-- The refunded gas; nothing is done for a transaction of another type. -/
def applyEip7702AuthList (isEip7702 : Bool) (authorizations : List Authorization)
    (journal : Journal) : Except String (UInt64 × Journal) :=
  if !isEip7702 then pure (0, journal)
  else do
    let (journal, refunded) ←
      authorizations.foldlM (applyAuthorization loadError chainId) (journal, 0)
    pure (refunded * (perEmptyAccountCost - perAuthBaseCost), journal)

/-- The signers and nonces of the entries that take effect, in order. -/
def effects : List Authorization → Journal → List (Address × UInt64)
  | [], _ => []
  | authorization :: authorizations, journal =>
    match checkAuthorization loadError chainId journal authorization with
    | .ok (some authority) =>
      (authority, authorization.nonce) ::
        effects authorizations (delegate journal authority authorization.address)
    | .ok none => effects authorizations journal
    | .error _ => []

end Apply

section Facts

variable {loadError : Address → Option String} {chainId : UInt64} {journal : Journal}
  {authorization : Authorization} {authority : Address}

/-- An entry that passes is signed by an account that may sign, for its present nonce. -/
theorem checkAuthorization_eq_some
    (h : checkAuthorization loadError chainId journal authorization = .ok (some authority)) :
    authorization.authority = some authority ∧ isBlacklisted authority = false ∧
      authorization.nonce = (journal authority).nonce ∧
      authorization.nonce ≠ 0xffffffffffffffff := by
  unfold checkAuthorization at h
  split at h
  · cases h
  · split at h
    · cases h
    · next hmax =>
      split at h
      · cases h
      · next signer hsigner =>
        split at h
        · cases h
        · next hblack =>
          split at h
          · cases h
          · dsimp only at h
            split at h
            · cases h
            · split at h
              · cases h
              · next hnonce =>
                cases h
                exact ⟨hsigner, by simpa using hblack, not_not.mp hnonce, hmax⟩

theorem delegate_other {address other : Address} (hother : other ≠ authority) :
    delegate journal authority address other = journal other :=
  Function.update_of_ne hother _ _

theorem delegate_balance (address other : Address) :
    (delegate journal authority address other).balance = (journal other).balance := by
  by_cases hother : other = authority
  · subst hother
    rw [delegate, Function.update_self]
  · rw [delegate_other hother]

theorem delegate_nonce_self (address : Address)
    (hmax : (journal authority).nonce ≠ 0xffffffffffffffff) :
    (delegate journal authority address authority).nonce.toNat
      = (journal authority).nonce.toNat + 1 := by
  have hlt : (journal authority).nonce.toNat + 1 < 2 ^ 64 := by
    have hbound := (journal authority).nonce.toNat_lt
    have hne : (journal authority).nonce.toNat ≠ 2 ^ 64 - 1 := fun heq =>
      hmax (UInt64.toNat_inj.mp heq)
    omega
  rw [delegate, Function.update_self]
  show (saturatingAdd (journal authority).nonce 1).toNat = _
  rw [saturatingAdd, checkedAdd, if_pos (show _ + UInt64.toNat 1 < 2 ^ 64 from hlt), Option.getD_some, UInt64.toNat_add]
  exact Nat.mod_eq_of_lt hlt

variable {state state' : Journal × UInt64} {authorizations : List Authorization}

/-- What an entry can do: nothing, or set the code of its signer. -/
theorem applyAuthorization_cases
    (h : applyAuthorization loadError chainId state authorization = .ok state') :
    (checkAuthorization loadError chainId state.1 authorization = .ok none ∧ state' = state) ∨
      ∃ authority, checkAuthorization loadError chainId state.1 authorization
          = .ok (some authority) ∧
        state'.1 = delegate state.1 authority authorization.address := by
  unfold applyAuthorization at h
  obtain ⟨checked, hcheck, h⟩ := except_bind_eq_ok.mp h
  cases checked with
  | none => exact .inl ⟨hcheck, (Except.ok.inj h).symm⟩
  | some authority =>
    cases h
    exact .inr ⟨authority, hcheck, rfl⟩

theorem delegate_nonce_le (address other : Address)
    (hmax : (journal authority).nonce ≠ 0xffffffffffffffff) :
    (journal other).nonce ≤ (delegate journal authority address other).nonce := by
  by_cases hother : other = authority
  · subst hother
    rw [UInt64.le_iff_toNat_le, delegate_nonce_self address hmax]
    exact Nat.le_succ _
  · rw [delegate_other hother]
    exact UInt64.le_refl _

/-! ## Whole lists -/

/-- What a list of authorizations leaves as it was. -/
structure ListFrame (authorizations : List Authorization) (journal journal' : Journal) : Prop where
  balance : ∀ a, (journal' a).balance = (journal a).balance
  blacklisted : ∀ a, isBlacklisted a = true → journal' a = journal a
  unsigned : ∀ a, (∀ authorization ∈ authorizations, authorization.authority ≠ some a) →
    journal' a = journal a
  nonce : ∀ a, (journal a).nonce ≤ (journal' a).nonce

theorem ListFrame.refl (authorizations : List Authorization) (journal : Journal) :
    ListFrame authorizations journal journal :=
  ⟨fun _ => rfl, fun _ _ => rfl, fun _ _ => rfl, fun _ => UInt64.le_refl _⟩

theorem ListFrame.trans {j j' j'' : Journal}
    (h : ListFrame [authorization] j j') (h' : ListFrame authorizations j' j'') :
    ListFrame (authorization :: authorizations) j j'' where
  balance a := (h'.balance a).trans (h.balance a)
  blacklisted a ha := (h'.blacklisted a ha).trans (h.blacklisted a ha)
  unsigned a ha := by
    rw [h'.unsigned a fun e he => ha e (List.mem_cons_of_mem _ he)]
    exact h.unsigned a fun e he => ha e (List.mem_singleton.mp he ▸ List.mem_cons_self)
  nonce a := UInt64.le_trans (h.nonce a) (h'.nonce a)

theorem applyAuthorization_frame
    (h : applyAuthorization loadError chainId state authorization = .ok state') :
    ListFrame [authorization] state.1 state'.1 := by
  rcases applyAuthorization_cases h with ⟨-, rfl⟩ | ⟨authority, hcheck, hstate⟩
  · exact .refl _ _
  · obtain ⟨hsigner, hblack, hnonce, hmax⟩ := checkAuthorization_eq_some hcheck
    rw [hnonce] at hmax
    rw [hstate]
    refine ⟨delegate_balance _, fun a ha => delegate_other ?_, fun a ha => delegate_other ?_,
      fun a => delegate_nonce_le _ _ hmax⟩
    · grind
    · grind

theorem foldlM_applyAuthorization_frame
    (h : authorizations.foldlM (applyAuthorization loadError chainId) state = .ok state') :
    ListFrame authorizations state.1 state'.1 := by
  induction authorizations generalizing state with
  | nil =>
    cases h
    exact .refl _ _
  | cons authorization authorizations ih =>
    rw [List.foldlM_cons] at h
    obtain ⟨middle, hstep, hrest⟩ := except_bind_eq_ok.mp h
    exact (applyAuthorization_frame hstep).trans (ih hrest)

/-- **What a list of authorizations changes.**  Whatever entries it has, balances stay, accounts of
the blacklist and accounts that signed no entry stay, and no nonce goes back. -/
theorem applyAuthList_frame (isEip7702 : Bool) (authorizations : List Authorization)
    {journal' : Journal} {gas : UInt64}
    (h : applyEip7702AuthList loadError chainId isEip7702 authorizations journal
      = .ok (gas, journal')) :
    ListFrame authorizations journal journal' := by
  cases isEip7702 with
  | false =>
    obtain ⟨-, rfl⟩ := Prod.mk.inj (Except.ok.inj h)
    exact .refl _ _
  | true =>
    obtain ⟨⟨final, refunded⟩, hfold, h⟩ := except_bind_eq_ok.mp h
    obtain ⟨-, rfl⟩ := Prod.mk.inj (Except.ok.inj h)
    exact foldlM_applyAuthorization_frame hfold

/-- The entries of a list that take effect are for different nonces of their signers, between the
nonces before and after the list. -/
theorem effects_spec
    (h : authorizations.foldlM (applyAuthorization loadError chainId) state = .ok state') :
    (effects loadError chainId authorizations state.1).Nodup ∧
      ∀ e ∈ effects loadError chainId authorizations state.1,
        (state.1 e.1).nonce ≤ e.2 ∧ e.2 < (state'.1 e.1).nonce := by
  induction authorizations generalizing state with
  | nil => exact ⟨List.nodup_nil, fun e he => absurd he List.not_mem_nil⟩
  | cons authorization authorizations ih =>
    rw [List.foldlM_cons] at h
    obtain ⟨middle, hstep, hrest⟩ := except_bind_eq_ok.mp h
    obtain ⟨hnodup, hbetween⟩ := ih hrest
    rw [effects]
    rcases applyAuthorization_cases hstep with ⟨hcheck, rfl⟩ | ⟨authority, hcheck, hmiddle⟩
    · rw [hcheck]
      exact ⟨hnodup, hbetween⟩
    · obtain ⟨-, -, hnonce, hmax⟩ := checkAuthorization_eq_some hcheck
      rw [hcheck]
      rw [hmiddle] at hnodup hbetween
      rw [hnonce] at hmax
      have hself : authorization.nonce < (middle.1 authority).nonce := by
        rw [UInt64.lt_iff_toNat_lt, hmiddle, delegate_nonce_self _ hmax, hnonce]
        exact Nat.lt_succ_self _
      refine ⟨List.nodup_cons.mpr ⟨fun hmem => ?_, hnodup⟩, ?_⟩
      · -- a later entry is for a nonce that the signer has only now
        have hlater := (hbetween _ hmem).1
        rw [← hmiddle] at hlater
        exact absurd hself (UInt64.not_lt.mpr hlater)
      · intro e he
        rcases List.mem_cons.mp he with rfl | he
        · exact ⟨UInt64.le_of_eq hnonce.symm,
            UInt64.lt_of_lt_of_le hself ((foldlM_applyAuthorization_frame hrest).nonce authority)⟩
        · obtain ⟨hge, hlt⟩ := hbetween e he
          exact ⟨UInt64.le_trans (delegate_nonce_le _ _ hmax) hge, hlt⟩

end Facts

/-! ## Whole histories -/

/-- The journal after transactions, and the authorizations that took effect in them.  Executing a
transaction does not take a nonce back. -/
inductive AuthRun (chainId : UInt64) (journal₀ : Journal) :
    List (Address × UInt64) → Journal → Prop
  | start : AuthRun chainId journal₀ [] journal₀
  | list {log : List (Address × UInt64)} {journal journal' : Journal}
      {loadError : Address → Option String} {authorizations : List Authorization} {gas : UInt64}
      (hrun : AuthRun chainId journal₀ log journal)
      (happly : applyEip7702AuthList loadError chainId true authorizations journal
        = .ok (gas, journal')) :
      AuthRun chainId journal₀ (log ++ effects loadError chainId authorizations journal) journal'
  | execute {log : List (Address × UInt64)} {journal journal' : Journal}
      (hrun : AuthRun chainId journal₀ log journal)
      (hnonce : ∀ a, (journal a).nonce ≤ (journal' a).nonce) :
      AuthRun chainId journal₀ log journal'

section Runs

variable {chainId : UInt64} {journal₀ journal : Journal} {log : List (Address × UInt64)}

/-- A nonce that was used is behind its account. -/
theorem AuthRun.spent (h : AuthRun chainId journal₀ log journal) :
    log.Nodup ∧ ∀ e ∈ log, e.2 < (journal e.1).nonce := by
  induction h with
  | start => exact ⟨List.nodup_nil, fun e he => absurd he List.not_mem_nil⟩
  | list hrun happly ih =>
    obtain ⟨hnodup, hspent⟩ := ih
    obtain ⟨⟨final, refunded⟩, hfold, happly⟩ := except_bind_eq_ok.mp happly
    obtain ⟨-, rfl⟩ := Prod.mk.inj (Except.ok.inj happly)
    obtain ⟨hnew, hbetween⟩ := effects_spec hfold
    refine ⟨List.nodup_append'.mpr ⟨hnodup, hnew, fun e hlog heffect => ?_⟩, fun e he => ?_⟩
    · exact absurd (hspent e hlog) (UInt64.not_lt.mpr (hbetween e heffect).1)
    · rcases List.mem_append.mp he with hlog | heffect
      · exact UInt64.lt_of_lt_of_le (hspent e hlog)
          ((foldlM_applyAuthorization_frame hfold).nonce e.1)
      · exact (hbetween e heffect).2
  | execute hrun hnonce ih =>
    exact ⟨ih.1, fun e he => UInt64.lt_of_lt_of_le (ih.2 e he) (hnonce e.1)⟩

/-- **No replay.**  In every history of transactions an authorization, given by its signer and
nonce, takes effect at most once. -/
theorem effective_once (h : AuthRun chainId journal₀ log journal) (e : Address × UInt64) :
    log.count e ≤ 1 :=
  List.nodup_iff_count_le_one.mp h.spent.1 e

end Runs

/-! ### One authorization, used in two transactions and in a list with others -/

def freshAccount : JournalAccount := ⟨0, 0, some (.raw []), true, false⟩

def signerAddress : Address := .repeatByte 20 5

def loneAuthorization : Authorization :=
  ⟨56, .repeatByte 20 6, 0, some signerAddress⟩

/-- The journal after the authorization took effect. -/
def delegatedJournal : Journal :=
  delegate (fun _ => freshAccount) signerAddress loneAuthorization.address

theorem loneAuthorization_applied :
    applyEip7702AuthList (fun _ => none) 56 true [loneAuthorization] (fun _ => freshAccount)
      = .ok (0, delegatedJournal) := rfl

/-- Only the second entry takes effect: the others have a signer of the blacklist, another chain, and
a nonce that is used. -/
def mixedAuthorizations : List Authorization :=
  [{ loneAuthorization with authority := nanoBlacklist.head? }, loneAuthorization,
    { loneAuthorization with chainId := 97, nonce := 1 }, loneAuthorization]

theorem mixedAuthorizations_frame :
    ListFrame mixedAuthorizations (fun _ => freshAccount) delegatedJournal := by
  have happlied : applyEip7702AuthList (fun _ => none) 56 true mixedAuthorizations
      (fun _ => freshAccount) = .ok (0, delegatedJournal) := rfl
  exact applyAuthList_frame true _ happlied

/-- The second use finds a later nonce. -/
theorem loneAuthorization_skipped :
    applyEip7702AuthList (fun _ => none) 56 true [loneAuthorization] delegatedJournal
      = .ok (0, delegatedJournal) := rfl

theorem loneAuthorization_once :
    AuthRun 56 (fun _ => freshAccount) [(signerAddress, 0)] delegatedJournal ∧
      [(signerAddress, (0 : UInt64))].count (signerAddress, 0) ≤ 1 := by
  have hrun : AuthRun 56 (fun _ => freshAccount) [(signerAddress, 0)] delegatedJournal :=
    .list (.list .start loneAuthorization_applied) loneAuthorization_skipped
  exact ⟨hrun, effective_once hrun (signerAddress, 0)⟩

end RethBsc
