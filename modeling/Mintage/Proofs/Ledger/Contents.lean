import Mathlib.Logic.Function.Basic
import Mintage.Proofs.Account.Address
import Mintage.Proofs.Block.Store
import Mintage.Proofs.Data.History
import Mintage.Proofs.Ledger.Sound

/-!
A ledger keeps what is stored in it. Its packed entries under text keys are compared with
plain contents: a value for each thing that an entry can be about.

* `Subject`, `Contents`: what there are entries about, and the value of each of them. No
  two subjects have the same key (`Subject.key_injective`).
* `Contents.lastStored`: what the operations of a run stored last for each subject. The
  contents after the run are just that (`Contents.runAll_eq_lastStored`).
* `Ledger.Shows`: a ledger holds the packed form of its contents. Storing a value on both
  sides keeps it so (`Shows.store`).
* `Ledger.reads_last_stored`: over every run of operations, each entry reads as the value
  that was stored last for it, and an operation touches only what it is about.
-/

namespace Mintage

/-- An address that was read from a text. -/
def ParsedAddress : Type := { a : Address // a.Parsed }

instance : DecidableEq ParsedAddress := inferInstanceAs (DecidableEq { a : Address // a.Parsed })

/-- What an entry of the ledger is about, with addresses as such and not as texts. -/
inductive Subject where
  | minter
  | params
  | supply
  | accountCounter
  | lastBlock
  | account (a : ParsedAddress)
  | balance (a : ParsedAddress)
  | moduleBalance (name : String)
  | mintRecord (height : UInt64)
  deriving DecidableEq

namespace Subject

/-- The key of the entry. -/
def key : Subject → Key
  | minter => .minter
  | params => .params
  | supply => .supply
  | accountCounter => .accountCounter
  | lastBlock => .lastBlock
  | account a => .account a.1.encoded
  | balance a => .balance a.1.encoded
  | moduleBalance name => .moduleBalance name
  | mintRecord height => .mintRecord height

/-- **No two subjects have the same key.** -/
theorem key_injective : Function.Injective key := fun s t h => by
  cases s <;> cases t <;> simp only [key, reduceCtorEq] at h ⊢
  case account.account a b =>
    exact congrArg _ (Subtype.ext (a.2.eq_of_encoded b.2 (Key.account.inj h)))
  case balance.balance a b =>
    exact congrArg _ (Subtype.ext (a.2.eq_of_encoded b.2 (Key.balance.inj h)))
  case moduleBalance.moduleBalance => exact congrArg _ (Key.moduleBalance.inj h)
  case mintRecord.mintRecord => exact congrArg _ (Key.mintRecord.inj h)

/-- What the entry says. -/
def Value : Subject → Type
  | minter => Minter
  | params => Params
  | supply => Coins
  | accountCounter => UInt64
  | lastBlock => UInt64 × Int64
  | account _ => Account
  | balance _ => Coins
  | moduleBalance _ => Coins
  | mintRecord _ => MintRecord

/-- The bytes that stand for a value. The counter is no packed value. -/
def encode : (s : Subject) → s.Value → Bytes
  | minter => Packed.pack (α := Minter)
  | params => Packed.pack (α := Params)
  | supply => Packed.pack (α := Coins)
  | accountCounter => fun n : UInt64 => Bytes.ofNatBE 8 n.toNat
  | lastBlock => Packed.pack (α := UInt64 × Int64)
  | account _ => Packed.pack (α := Account)
  | balance _ => Packed.pack (α := Coins)
  | moduleBalance _ => Packed.pack (α := Coins)
  | mintRecord _ => Packed.pack (α := MintRecord)

end Subject

/-- A subject, and the value that is stored for it. -/
structure Stored where
  subject : Subject
  value : subject.Value

/-- The entry that stores the value. -/
def Stored.write (v : Stored) : Write := ⟨v.subject.key, v.subject.encode v.value⟩

/-- A value for each subject that there is an entry about. -/
abbrev Contents : Type := (s : Subject) → Option s.Value

/-! ### Operations -/

/-- What can be done to a ledger through the operations of the store. -/
inductive StoreStep where
  | setMinter (m : Minter)
  | setParams (p : Params)
  | setLastBlock (height : UInt64) (secs : Int64)
  | setAccount (account : Account) (parsed : account.address.Parsed)
  | setMintRecord (r : MintRecord)
  | nextAccountNumber
  | mintCoins (name : String) (coins : Coins)
  | sendToModule (sender recipient : String) (coins : Coins)
  | sendToAccount (sender : String) (recipient : ParsedAddress) (coins : Coins)
  | commitMint (account : Account) (parsed : account.address.Parsed) (coins : Coins)
      (record : MintRecord)
  | reopen

/-- The ledger as it is found when it is opened again: built from the entries it had. -/
def Ledger.reopen (L : Ledger) : Ledger := ⟨OrderedMap.ofList L.entries.toList⟩

/-- The ledger after an operation; one that is refused leaves it as it was. -/
def Ledger.storeStep (L : Ledger) : StoreStep → Ledger
  | .setMinter m => ((StoreM.setMinter id m).runOn .none L).2
  | .setParams p => ((StoreM.setParams id p).runOn .none L).2
  | .setLastBlock height secs => ((StoreM.setLastBlock id height secs).runOn .none L).2
  | .setAccount account _ => ((StoreM.setAccount id account).runOn .none L).2
  | .setMintRecord r => ((StoreM.setMintRecord id r).runOn .none L).2
  | .nextAccountNumber => ((StoreM.nextAccountNumber id).runOn .none L).2
  | .mintCoins name coins => ((StoreM.mintCoins id name coins).runOn .none L).2
  | .sendToModule sender recipient coins =>
      ((StoreM.sendToModule id sender recipient coins).runOn .none L).2
  | .sendToAccount sender recipient coins =>
      ((StoreM.sendToAccount id sender recipient.1 coins).runOn .none L).2
  | .commitMint account _ coins record =>
      ((StoreM.commitMint id account coins record).runOn .none L).2
  | .reopen => L.reopen

/-- What is stored once two balances are known; nothing, where one of them does not come
about. -/
def storedWith (first second : Option Coins) (values : Coins → Coins → List Stored) :
    List Stored :=
  match first, second with
  | some a, some b => values a b
  | _, _ => []

namespace Contents

/-- Nothing was stored. -/
def empty : Contents := fun _ => none

/-- The contents with one value stored. -/
def store (c : Contents) (v : Stored) : Contents :=
  Function.update c v.subject (some v.value)

/-- No entry means no coins. -/
def supply (c : Contents) : Coins :=
  (c .supply : Option Coins).getD .zero

/-- What an account holds; nothing stored is nothing held. -/
def balance (c : Contents) (a : ParsedAddress) : Coins :=
  (c (.balance a) : Option Coins).getD .zero

/-- What a module holds; nothing stored is nothing held. -/
def moduleBalance (c : Contents) (name : String) : Coins :=
  (c (.moduleBalance name) : Option Coins).getD .zero

/-- The account number that comes next. -/
def accountCounter (c : Contents) : UInt64 :=
  (show Option UInt64 from c .accountCounter).getD 0

/-- What an operation stores, one value after the other. -/
def values (c : Contents) : StoreStep → List Stored
  | .setMinter m => [⟨.minter, m⟩]
  | .setParams p => [⟨.params, p⟩]
  | .setLastBlock height secs => [⟨.lastBlock, (height, secs)⟩]
  | .setAccount account parsed => [⟨.account ⟨account.address, parsed⟩, account⟩]
  | .setMintRecord r => [⟨.mintRecord r.blockHeight, r⟩]
  | .nextAccountNumber => [⟨.accountCounter, Word.next c.accountCounter⟩]
  | .mintCoins name coins =>
      if coins.isEmpty then []
      else storedWith ((c.moduleBalance name).add? coins) (c.supply.add? coins) fun held supply =>
        [⟨.moduleBalance name, held⟩, ⟨.supply, supply⟩]
  | .sendToModule sender recipient coins =>
      if coins.isEmpty ∨ sender = recipient then []
      else storedWith ((c.moduleBalance sender).sub? coins) ((c.moduleBalance recipient).add? coins)
        fun left held => [⟨.moduleBalance sender, left⟩, ⟨.moduleBalance recipient, held⟩]
  | .sendToAccount sender recipient coins =>
      if coins.isEmpty then []
      else storedWith ((c.moduleBalance sender).sub? coins) ((c.balance recipient).add? coins)
        fun left held => [⟨.moduleBalance sender, left⟩, ⟨.balance recipient, held⟩]
  | .commitMint account parsed coins record =>
      storedWith ((c.balance ⟨account.address, parsed⟩).add? coins) (c.supply.add? coins)
        fun held supply =>
          [⟨.account ⟨account.address, parsed⟩, account⟩,
            ⟨.balance ⟨account.address, parsed⟩, held⟩, ⟨.supply, supply⟩,
            ⟨.mintRecord record.blockHeight, record⟩]
  | .reopen => []

/-- The contents after an operation. -/
def step (c : Contents) (e : StoreStep) : Contents :=
  (c.values e).foldl store c

/-- The value that is stored for a subject, where it is that one's. -/
def valueFor (s : Subject) (v : Stored) : Option s.Value :=
  if h : v.subject = s then some (h ▸ v.value) else none

/-- The last value that an operation stores for a subject. -/
def stores (s : Subject) : Contents × StoreStep → Option s.Value
  | (c, e) => (c.values e).reverse.findSome? (valueFor s)

/-- The value that was stored last for each subject by the operations of a run. -/
def lastStored (run : List StoreStep) : Contents :=
  fun s => latest (stores s) (history step empty run)

/-! ### What was stored last -/

lemma store_apply (c : Contents) (v : Stored) (s : Subject) :
    c.store v s = (valueFor s v).or (c s) := by
  rw [store, valueFor]
  by_cases h : v.subject = s
  · subst h
    simp only [Function.update_self, dif_pos, Option.some_or]
  · rw [Function.update_of_ne (Ne.symm h), dif_neg h, Option.none_or]

/-- Of several values the last one counts. -/
lemma foldl_store_apply (vs : List Stored) (c : Contents) (s : Subject) :
    vs.foldl store c s = (vs.reverse.findSome? (valueFor s)).or (c s) := by
  induction vs generalizing c with
  | nil => rfl
  | cons v vs ih =>
      rw [List.foldl_cons, ih, store_apply, List.reverse_cons, List.findSome?_append,
        Option.or_assoc]
      congr 1
      cases hv : valueFor s v <;> simp [hv]

/-- **The contents after a run** are what was stored last. -/
theorem runAll_eq_lastStored (run : List StoreStep) : runAll step empty run = lastStored run := by
  have hlatest : ∀ s, runAll step empty run s = latest (stores s) (history step empty run) := by
    refine history_induction (I := fun past (c : Contents) => ∀ s, c s = latest (stores s) past)
      (fun past c e _ hc s => ?_) fun _ => rfl
    rw [latest_concat, ← hc s]
    exact foldl_store_apply _ c s
  exact funext hlatest

end Contents

/-! ### A ledger and its contents -/

namespace Ledger

variable {L : Ledger} {c : Contents}

/-- A ledger holds the packed form of its contents. -/
def Shows (L : Ledger) (c : Contents) : Prop :=
  ∀ s : Subject, L.bytes? s.key = (c s).map s.encode

namespace Shows

lemma empty : Ledger.empty.Shows Contents.empty := fun _ => rfl

/-- **A value stored on both sides** leaves a ledger that holds its contents. -/
theorem store (h : L.Shows c) (v : Stored) : (L.store v.write).Shows (c.store v) := by
  intro s
  by_cases hs : v.subject = s
  · subst hs
    rw [Contents.store, Function.update_self]
    exact bytes?_store_self L v.write
  · rw [Contents.store, Function.update_of_ne (Ne.symm hs), ← h s]
    exact bytes?_store_ne L fun hkey => hs (Subject.key_injective hkey)

/-- Several values are stored one after the other. -/
lemma apply (h : L.Shows c) (vs : List Stored) :
    (L.apply (vs.map Stored.write)).Shows (vs.foldl Contents.store c) := by
  induction vs generalizing L c with
  | nil => exact h
  | cons v vs ih => exact ih (h.store v)

/-! ### What the entries read as -/

lemma load? {α : Type} [Packed α] [LawfulPacked α] {k : Key} {o : Option α}
    (h : L.bytes? k = o.map Packed.pack) : L.load? α k = .ok o := by
  cases o with
  | none => rw [Ledger.load?, h]; rfl
  | some a => exact load?_of_bytes? h

lemma loadCoins {k : Key} {o : Option Coins} (h : L.bytes? k = o.map Packed.pack) :
    L.loadCoins k = .ok (o.getD .zero) :=
  loadCoins_eq_ok_iff.2 ⟨o, load? h, rfl⟩

variable (h : L.Shows c)

include h

lemma moduleBalance (name : String) : L.moduleBalance name = .ok (c.moduleBalance name) :=
  loadCoins (h (.moduleBalance name))

lemma balance (a : ParsedAddress) : L.balance a.1 = .ok (c.balance a) :=
  loadCoins (h (.balance a))

lemma supply : L.supply = .ok c.supply :=
  loadCoins (h .supply)

lemma accountCounter : L.accountCounter = c.accountCounter := by
  have hread : L.bytes? .accountCounter = (c .accountCounter).map Subject.accountCounter.encode :=
    h .accountCounter
  rw [Ledger.accountCounter, hread, Contents.accountCounter]
  cases c .accountCounter with
  | none => rfl
  | some n => exact counterOf_ofNatBE n

end Shows

/-! ### What the operations write -/

/-- The writes of an operation; one that is refused makes none. -/
def writesOf (ws : Except StateError (List Write)) : List Write :=
  match ws with
  | .ok ws => ws
  | .error _ => []

lemma runOn_update_ledger {c : StoreCall} {op : Ledger → Except StateError (List Write)}
    {call : BlockStore Ledger → Call Ledger Unit}
    (hcall : ∀ o : Outages, call o.store = o.writes c op) (L : Ledger) :
    ((StoreM.ask (id : StateError → StateError) call).runOn .none L).2
      = L.apply (writesOf (op L)) := by
  cases hop : op L with
  | ok ws => rw [StoreM.runOn_update_of_ok hcall rfl hop]; rfl
  | error e => rw [StoreM.runOn_update_of_error hcall rfl hop]; rfl

lemma toOption_credit (held coins : Coins) : (credit held coins).toOption = held.add? coins := by
  rw [credit, Coins.checkedAdd]
  cases held.add? coins <;> rfl

lemma toOption_debit (holder : String) (held coins : Coins) :
    (debit holder held coins).toOption = held.sub? coins := by
  rw [debit]
  cases held.sub? coins <;> rfl

section Writes

variable {k : Key} {coins : Coins} {writes : Coins → Coins → List Write}
  {values : Coins → Coins → List Stored}
  (hvalues : ∀ a b, writes a b = (values a b).map Stored.write)

include hvalues

/-- Writes that take two balances are made where both come about. -/
lemma writesOf_bind (first second : Except StateError Coins) :
    writesOf (first >>= fun a => second >>= fun b => pure (writes a b))
      = (storedWith first.toOption second.toOption values).map Stored.write := by
  cases first with
  | error e => rfl
  | ok a =>
      cases second with
      | error e => rfl
      | ok b => exact hvalues a b

/-- New coins are written as the sums that they make. -/
lemma writesOf_issueWrites {held supply : Coins} (hheld : L.loadCoins k = .ok held)
    (hsupply : L.supply = .ok supply) :
    writesOf (L.issueWrites k coins writes)
      = (storedWith (held.add? coins) (supply.add? coins) values).map Stored.write := by
  rw [← toOption_credit, ← toOption_credit, ← writesOf_bind hvalues]
  simp only [issueWrites, hheld, hsupply]
  rfl

/-- A payment is written as what the sender keeps and what the recipient then holds. -/
lemma writesOf_paymentWrites {sender : String} {had held : Coins}
    (hhad : L.moduleBalance sender = .ok had) (hheld : L.loadCoins k = .ok held) :
    writesOf (L.paymentWrites sender k coins writes)
      = (storedWith (had.sub? coins) (held.add? coins) values).map Stored.write := by
  rw [← toOption_debit sender, ← toOption_credit, ← writesOf_bind hvalues]
  simp only [paymentWrites, hhad, hheld]
  rfl

end Writes

lemma reopen_eq (L : Ledger) : L.reopen = L := by
  rw [reopen, OrderedMap.ofList_toList]

/-- **An operation writes** the packed forms of the values that it stores. -/
theorem Shows.storeStep_eq (h : L.Shows c) (e : StoreStep) :
    L.storeStep e = L.apply ((c.values e).map Stored.write) := by
  cases e with
  | setMinter m => rfl
  | setParams p => rfl
  | setLastBlock height secs => rfl
  | setAccount account parsed => rfl
  | setMintRecord r => rfl
  | nextAccountNumber =>
      show L.apply L.reserveNumber = _
      rw [reserveNumber, h.accountCounter]
      rfl
  | mintCoins name coins =>
      rw [storeStep, StoreM.mintCoins, runOn_update_ledger (fun _ => rfl), mintWrites,
        Contents.values]
      split
      · rfl
      · refine congrArg L.apply (writesOf_issueWrites ?_ (h.moduleBalance name) h.supply)
        exact fun _ _ => rfl
  | sendToModule sender recipient coins =>
      rw [storeStep, StoreM.sendToModule, runOn_update_ledger (fun _ => rfl), moduleTransferWrites,
        Contents.values]
      split
      · rfl
      · refine congrArg L.apply (writesOf_paymentWrites ?_ (h.moduleBalance sender)
          (h.moduleBalance recipient))
        exact fun _ _ => rfl
  | sendToAccount sender recipient coins =>
      rw [storeStep, StoreM.sendToAccount, runOn_update_ledger (fun _ => rfl),
        accountTransferWrites, Contents.values]
      split
      · rfl
      · refine congrArg L.apply (writesOf_paymentWrites ?_ (h.moduleBalance sender)
          (h.balance recipient))
        exact fun _ _ => rfl
  | commitMint account parsed coins record =>
      rw [storeStep, StoreM.commitMint, runOn_update_ledger (fun _ => rfl), commitWrites,
        Contents.values]
      refine congrArg L.apply
        (writesOf_issueWrites ?_ (h.balance ⟨account.address, parsed⟩) h.supply)
      exact fun _ _ => rfl
  | reopen => exact L.reopen_eq

/-- **An operation keeps** a ledger in step with its contents. -/
theorem Shows.step (h : L.Shows c) (e : StoreStep) : (L.storeStep e).Shows (c.step e) := by
  rw [h.storeStep_eq, Contents.step]
  exact h.apply (c.values e)

/-- Over a run too, a ledger stays in step with its contents. -/
lemma Shows.run (h : L.Shows c) (run : List StoreStep) :
    (runAll storeStep L run).Shows (runAll Contents.step c run) := by
  induction run generalizing L c with
  | nil => exact h
  | cons e r ih => exact ih (h.step e)

end Ledger

/-! ### Entries are independent -/

/-- What an operation is about. -/
def StoreStep.subjects : StoreStep → List Subject
  | setMinter _ => [.minter]
  | setParams _ => [.params]
  | setLastBlock .. => [.lastBlock]
  | setAccount account parsed => [.account ⟨account.address, parsed⟩]
  | setMintRecord r => [.mintRecord r.blockHeight]
  | nextAccountNumber => [.accountCounter]
  | mintCoins name _ => [.moduleBalance name, .supply]
  | sendToModule sender recipient _ => [.moduleBalance sender, .moduleBalance recipient]
  | sendToAccount sender recipient _ => [.moduleBalance sender, .balance recipient]
  | commitMint account parsed _ record =>
      [.account ⟨account.address, parsed⟩, .balance ⟨account.address, parsed⟩, .supply,
        .mintRecord record.blockHeight]
  | reopen => []

lemma storedWith_subjects {values : Coins → Coins → List Stored} {about : List Subject}
    (h : ∀ a b, (values a b).map Stored.subject = about) (first second : Option Coins) :
    (storedWith first second values).map Stored.subject ⊆ about := by
  unfold storedWith
  split
  · rw [h]
    exact List.Subset.refl about
  · exact List.nil_subset about

namespace Contents

/-- An operation stores values only for what it is about. -/
lemma values_subjects (c : Contents) (e : StoreStep) :
    (c.values e).map Stored.subject ⊆ e.subjects := by
  cases e with
  | mintCoins name coins =>
      rw [values]
      split
      · exact List.nil_subset _
      · refine storedWith_subjects ?_ _ _
        exact fun _ _ => rfl
  | sendToModule sender recipient coins =>
      rw [values]
      split
      · exact List.nil_subset _
      · refine storedWith_subjects ?_ _ _
        exact fun _ _ => rfl
  | sendToAccount sender recipient coins =>
      rw [values]
      split
      · exact List.nil_subset _
      · refine storedWith_subjects ?_ _ _
        exact fun _ _ => rfl
  | commitMint account parsed coins record =>
      refine storedWith_subjects ?_ _ _
      exact fun _ _ => rfl
  | _ => exact List.Subset.refl _

/-- Values of other subjects leave a subject's value as it is. -/
lemma foldl_store_of_not_mem {vs : List Stored} {s : Subject} (h : s ∉ vs.map Stored.subject)
    (c : Contents) : vs.foldl store c s = c s := by
  induction vs generalizing c with
  | nil => rfl
  | cons v vs ih =>
      rw [List.map_cons, List.mem_cons, not_or] at h
      rw [List.foldl_cons, ih h.2, store]
      exact Function.update_of_ne h.1 _ _

/-- **An operation leaves alone** what it is not about. -/
theorem step_of_not_mem {c : Contents} {e : StoreStep} {s : Subject} (h : s ∉ e.subjects) :
    c.step e s = c s :=
  foldl_store_of_not_mem (fun hs => h (c.values_subjects e hs)) c

end Contents

namespace Ledger

/-- What the look-ups of a ledger answer: the value that its contents have there. -/
structure Reads (L : Ledger) (c : Contents) : Prop where
  minter : L.minter? = .ok (c .minter)
  params : L.params? = .ok (c .params)
  lastBlock : L.lastBlock? = .ok (c .lastBlock)
  account : ∀ a : ParsedAddress, L.account? a.1 = .ok (c (.account a))
  balance : ∀ a : ParsedAddress, L.balance a.1 = .ok (c.balance a)
  moduleBalance : ∀ name, L.moduleBalance name = .ok (c.moduleBalance name)
  supply : L.supply = .ok c.supply
  mintRecord : ∀ height, L.mintRecord? height = .ok (c (.mintRecord height))

lemma Shows.reads {L : Ledger} {c : Contents} (h : L.Shows c) : L.Reads c where
  minter := Shows.load? (h .minter)
  params := Shows.load? (h .params)
  lastBlock := Shows.load? (h .lastBlock)
  account a := Shows.load? (h (.account a))
  balance := h.balance
  moduleBalance := h.moduleBalance
  supply := h.supply
  mintRecord height := Shows.load? (h (.mintRecord height))

/-- **A ledger reads back what was stored in it.** Whatever operations lead from the empty
ledger to it, each look-up answers without an error and gives the value that was stored last
for what it asks about; and an operation changes the bytes of nothing that it is not about. -/
theorem reads_last_stored (run : List StoreStep) :
    (runAll storeStep Ledger.empty run).Reads (Contents.lastStored run) ∧
    ∀ e s, s ∉ StoreStep.subjects e →
      ((runAll storeStep Ledger.empty run).storeStep e).bytes? s.key
        = (runAll storeStep Ledger.empty run).bytes? s.key := by
  have hshows := Shows.empty.run run
  rw [Contents.runAll_eq_lastStored] at hshows
  refine ⟨hshows.reads, fun e s hs => ?_⟩
  rw [hshows.step e s, Contents.step_of_not_mem hs, hshows s]

/-- An account with a key and one tranche, under an address with the prefix `u`. -/
def sampleAccount : Account :=
  .periodic ⟨⟨"u1qqqqqq", Text.utf8 "1qqqqqq"⟩, some [2, 3], 7, 1⟩ (.ofCoin ⟨"ugd", 5⟩) 0 60
    [⟨60, .ofCoin ⟨"ugd", 5⟩⟩]

lemma sampleAccount_parsed : sampleAccount.address.Parsed := ⟨"u1qqqqqq", "u", by decide +kernel⟩

/-- The ledger that the account was stored in, once it was opened again. -/
def reopened : Ledger :=
  runAll storeStep Ledger.empty [.setAccount sampleAccount sampleAccount_parsed, .reopen]

/-- The account reads back after the ledger was opened again, and making coins leaves its
entry alone. -/
theorem reads_last_stored_reopened :
    Subject.account ⟨_, sampleAccount_parsed⟩ ∉
      StoreStep.subjects (.mintCoins "ugdmint" (.ofCoin ⟨"ugd", 5⟩)) ∧
    reopened.account? sampleAccount.address = .ok (some sampleAccount) ∧
    (reopened.storeStep (.mintCoins "ugdmint" (.ofCoin ⟨"ugd", 5⟩))).account?
      sampleAccount.address = .ok (some sampleAccount) := by
  have hnot : Subject.account ⟨_, sampleAccount_parsed⟩ ∉
      StoreStep.subjects (.mintCoins "ugdmint" (.ofCoin ⟨"ugd", 5⟩)) := by
    simp [StoreStep.subjects]
  obtain ⟨hreads, hother⟩ :=
    reads_last_stored [.setAccount sampleAccount sampleAccount_parsed, .reopen]
  rw [← Contents.runAll_eq_lastStored] at hreads
  have hread : reopened.account? sampleAccount.address = .ok (some sampleAccount) := by
    refine (hreads.account ⟨_, sampleAccount_parsed⟩).trans (congrArg Except.ok ?_)
    exact Function.update_self (Subject.account ⟨_, sampleAccount_parsed⟩) (some sampleAccount)
      Contents.empty
  exact ⟨hnot, hread, (load?_of_sameEntry (hother _ _ hnot)).trans hread⟩

end Ledger

end Mintage
