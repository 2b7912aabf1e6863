import Mockbank.Crypto.Provider
import Mockbank.Jvm.Statement
import Mockbank.Jvm.Text
import Mockbank.Transition.Run

/-!
# `KeyStoreHandler`

A handler loads the key store of the user, with a password or without one, and stores it again
under the password that it was loaded with.  Storing truncates the file before it writes, so
that a write that breaks off leaves the beginning of a key store.  The handlers live in
processes, which may end; their calls follow one another.

Main results:

- Theorem `Represents.step`: the handlers and the file behave as one shared key store under
  one password, of which a write that breaks off leaves a remainder.
- Theorem `handlers_share_store`: so they do over any run.
- Theorem `recoverable_iff`: which key stores can still be had back.
-/

namespace Mockbank
namespace Keystore

open Jvm Transition

variable {Store : Type}

/-! ## The code -/

/-- What `KeyStoreHandler` calls of `KeyStore`: `load` from the bytes of a file, and the bytes
that `store` writes. -/
structure KeyStoreFormat (Store : Type) where
  load : List UInt8 → Option JString → Except JavaException Store
  store : Store → JString → List UInt8

/-- A key store is loaded as it was stored, under its password or unverified.  With a password
its integrity is checked: another one is refused, and so is a file that breaks off. -/
structure KeyStoreFormat.Promises (F : KeyStoreFormat Store) : Prop where
  load_store : ∀ ks pw, F.load (F.store ks pw) (some pw) = .ok ks
  load_unverified : ∀ ks pw, F.load (F.store ks pw) none = .ok ks
  verifies : ∀ {ks ks' pw pw'}, F.load (F.store ks pw) (some pw') = .ok ks' → pw' = pw
  refuses_cut : ∀ {ks ks' pw pw' bs}, bs <+: F.store ks pw → F.load bs (some pw') = .ok ks' →
    bs = F.store ks pw

/-- `KeyStoreHandler`, with its own copy of the password. -/
structure KeyStoreHandler (Store : Type) where
  ks : Store
  pw : Option JString

/-- The file `.keystore` in the home directory of the user, where there is one. -/
abbrev File : Type := Option (List UInt8)

section Code

variable (F : KeyStoreFormat Store)

/-- `new KeyStoreHandler(pw)`; every exception in it becomes an `IllegalArgumentException`. -/
def KeyStoreHandler.new (pw : Option JString) :
    EStateM JavaException File (KeyStoreHandler Store) := do
  match ← get with
  | none => throw .illegalArgument
  | some bytes =>
      match F.load bytes pw with
      | .ok ks => return ⟨ks, pw⟩
      | .error _ => throw .illegalArgument

/-- `KeyStoreHandler.store`.  Either the file cannot be opened, or it takes some number of
bytes before the write breaks off. -/
def KeyStoreHandler.store (handler : KeyStoreHandler Store) (written : Option Nat) :
    EStateM JavaException File Unit := do
  match handler.pw, written with
  | none, _ => throw .illegalArgument
  | some _, none => throw .io
  | some pw, some n =>
      set (some ((F.store handler.ks pw).take n))
      if n < (F.store handler.ks pw).length then throw .io

/-- The file and the handlers that have been constructed, each with the process it is in. -/
structure User (Store : Type) where
  file : File
  handlers : List (Nat × KeyStoreHandler Store)

/-- What is done: a handler is constructed in a process, the key store of one is changed
through `getKeyStore`, one stores its key store, or a process ends, in the middle of a write
or not. -/
inductive Action (Store : Type) where
  | construct (process : Nat) (pw : Option JString)
  | change (i : Nat) (f : Store → Store)
  | store (i : Nat) (written : Option Nat)
  | exit (process : Nat)

/-- A change of a key store. -/
def Action.isChange : Action Store → Bool
  | .change _ _ => true
  | _ => false

/-- Change the key store of a handler. -/
def KeyStoreHandler.change (f : Store → Store) (handler : KeyStoreHandler Store) :
    KeyStoreHandler Store :=
  { handler with ks := f handler.ks }

/-- One action; a handler that could not be constructed is not there. -/
def step (u : User Store) : Action Store → User Store
  | .construct process pw =>
      match (KeyStoreHandler.new F pw).run u.file with
      | .ok handler file => ⟨file, u.handlers ++ [(process, handler)]⟩
      | .error _ file => ⟨file, u.handlers⟩
  | .change i f =>
      { u with handlers := u.handlers.modify i (Prod.map id (KeyStoreHandler.change f)) }
  | .store i written =>
      match u.handlers[i]? with
      | none => u
      | some (_, handler) => { u with file := finalState ((handler.store F written).run u.file) }
  | .exit process => { u with handlers := u.handlers.filter fun e => e.1 ≠ process }

/-- The key store of a user before the first handler. -/
def stored (ks : Store) (pw : JString) : User Store :=
  ⟨some (F.store ks pw), []⟩

end Code

/-! ## One shared key store -/

/-- What is shared: a key store, or what a write that broke off has left of one. -/
inductive Content (Store : Type) where
  | whole (ks : Store)
  | remains (bs : List UInt8)

/-- The key store that all handlers load and store, as long as the file is whole. -/
structure Shared (Store : Type) where
  content : Content Store
  handlers : List (Nat × KeyStoreHandler Store)

/-- The handler that can be constructed with `pw` when `password` is the password.  What
remains of a key store is opened by nothing but an unverified load, and it depends on the
format what that makes of it. -/
def Shared.opened (F : KeyStoreFormat Store) (password : JString) (s : Shared Store)
    (pw : Option JString) : Option (KeyStoreHandler Store) :=
  match s.content, pw with
  | .whole ks, none => some ⟨ks, none⟩
  | .whole ks, some pw => if pw = password then some ⟨ks, some pw⟩ else none
  | .remains bs, none => (F.load bs none).toOption.map (⟨·, none⟩)
  | .remains _, some _ => none

/-- The content after a write: the key store of the handler, or the beginning of it if the
write breaks off. -/
def Shared.write (F : KeyStoreFormat Store) (s : Shared Store) (handler : KeyStoreHandler Store)
    (written : Option Nat) : Content Store :=
  match handler.pw, written with
  | some pw, some n =>
      if n < (F.store handler.ks pw).length then .remains ((F.store handler.ks pw).take n)
      else .whole handler.ks
  | _, _ => s.content

/-- One action on the shared key store. -/
def Shared.step (F : KeyStoreFormat Store) (password : JString) (s : Shared Store) :
    Action Store → Shared Store
  | .construct process pw =>
      { s with handlers := s.handlers ++ ((s.opened F password pw).map (process, ·)).toList }
  | .change i f =>
      { s with handlers := s.handlers.modify i (Prod.map id (KeyStoreHandler.change f)) }
  | .store i written =>
      match s.handlers[i]? with
      | none => s
      | some (_, handler) => { s with content := s.write F handler written }
  | .exit process => { s with handlers := s.handlers.filter fun e => e.1 ≠ process }

/-- The handlers with a password have the one of the key store. -/
def Shared.SamePassword (password : JString) (s : Shared Store) : Prop :=
  ∀ e ∈ s.handlers, e.2.pw = none ∨ e.2.pw = some password

/-- The file is the shared key store under the password, or what remains of one. -/
structure Represents (F : KeyStoreFormat Store) (password : JString) (u : User Store)
    (s : Shared Store) : Prop where
  handlers : u.handlers = s.handlers
  pw : s.SamePassword password
  whole : ∀ ks, s.content = .whole ks → u.file = some (F.store ks password)
  remains : ∀ bs, s.content = .remains bs →
    u.file = some bs ∧ ∃ ks, bs <+: F.store ks password ∧ bs ≠ F.store ks password

/-- At first the file is the key store of the user. -/
theorem represents_stored (F : KeyStoreFormat Store) (ks : Store) (password : JString) :
    Represents F password (stored F ks password) ⟨.whole ks, []⟩ where
  handlers := rfl
  pw := fun e h => absurd h List.not_mem_nil
  whole := fun ks' h => by rw [← Content.whole.inj h]; rfl
  remains := fun bs h => by contradiction

/-! ## One action -/

variable {F : KeyStoreFormat Store} {password : JString} {u : User Store} {s : Shared Store}

/-- What constructing a handler comes to. -/
theorem run_new (pw : Option JString) (file : File) :
    (KeyStoreHandler.new F pw).run file =
      match file.map (F.load · pw) with
      | some (.ok ks) => .ok ⟨ks, pw⟩ file
      | _ => .error .illegalArgument file := by
  cases file with
  | none => rfl
  | some bytes =>
      have hget : (get : EStateM JavaException File File).run (some bytes) =
          .ok (some bytes) (some bytes) := rfl
      unfold KeyStoreHandler.new
      rw [run_bind_of_ok hget, Option.map_some]
      cases hload : F.load bytes pw with
      | ok ks => simp only [hload]; rfl
      | error e => simp only [hload]; rfl

/-- A handler is constructed exactly when the shared key store can be opened. -/
theorem Represents.run_new (hF : F.Promises) (h : Represents F password u s)
    (pw : Option JString) :
    (KeyStoreHandler.new F pw).run u.file =
      ended ((s.opened F password pw).elim (.error .illegalArgument) .ok) u.file := by
  rw [Keystore.run_new]
  unfold Shared.opened
  cases hcontent : s.content with
  | remains bs =>
      obtain ⟨hfile, ks, hcut, hne⟩ := h.remains bs hcontent
      rw [hfile, Option.map_some]
      cases pw with
      | none =>
          cases hload : F.load bs none with
          | ok ks' => simp only [hload, Except.toOption]; rfl
          | error e => simp only [hload, Except.toOption]; rfl
      | some pw =>
          cases hload : F.load bs (some pw) with
          | ok ks' => exact absurd (hF.refuses_cut hcut hload) hne
          | error e => simp [ended]
  | whole ks =>
      rw [h.whole ks hcontent, Option.map_some]
      cases pw with
      | none =>
          rw [hF.load_unverified]
          rfl
      | some pw =>
          by_cases hpw : pw = password
          · simp only [hpw, hF.load_store, if_true]
            rfl
          · simp only [if_neg hpw]
            cases hload : F.load (F.store ks password) (some pw) with
            | error e => rfl
            | ok ks' => exact absurd (hF.verifies hload) hpw

/-- What a handler leaves in the file. -/
theorem finalState_store (handler : KeyStoreHandler Store) (written : Option Nat) (file : File) :
    finalState ((handler.store F written).run file) =
      match handler.pw, written with
      | some pw, some n => some ((F.store handler.ks pw).take n)
      | _, _ => file := by
  rcases handler with ⟨ks, _ | pw⟩
  · rfl
  · cases written with
    | none => rfl
    | some n =>
        unfold KeyStoreHandler.store
        by_cases hlt : n < (F.store ks pw).length
        · simp only [hlt, if_true]
          rfl
        · simp only [hlt, if_false]
          rfl

/-- A handler that can be constructed holds what is shared, if it has a password, and that is
the one. -/
theorem of_opened {pw : Option JString} {handler : KeyStoreHandler Store}
    (h : s.opened F password pw = some handler) :
    handler.pw = none ∨ handler.pw = some password ∧ s.content = .whole handler.ks := by
  unfold Shared.opened at h
  split at h
  next ks hcontent =>
    obtain rfl := Option.some.inj h
    exact Or.inl rfl
  next ks pw hcontent =>
    split at h
    next hpw =>
      obtain rfl := Option.some.inj h
      exact Or.inr ⟨congrArg some hpw, hcontent⟩
    next => contradiction
  next bs hcontent =>
    obtain ⟨ks, -, rfl⟩ := Option.map_eq_some_iff.mp h
    exact Or.inl rfl
  next => contradiction

/-- A change leaves the passwords as they are. -/
theorem pw_modify {handlers : List (Nat × KeyStoreHandler Store)} {P : Option JString → Prop}
    (h : ∀ e ∈ handlers, P e.2.pw) (i : Nat) (f : Store → Store) :
    ∀ e ∈ handlers.modify i (Prod.map id (KeyStoreHandler.change f)), P e.2.pw := by
  intro e hmem
  obtain ⟨j, hj, rfl⟩ := List.mem_iff_getElem.mp hmem
  rw [List.getElem_modify]
  rw [List.length_modify] at hj
  have hold := h _ (List.getElem_mem hj)
  split
  · exact hold
  · exact hold

theorem step_store (F : KeyStoreFormat Store) (u : User Store) (i : Nat) (written : Option Nat) :
    Keystore.step F u (.store i written) =
      (u.handlers[i]?).elim u fun e =>
        { u with file := finalState ((e.2.store F written).run u.file) } := by
  simp only [Keystore.step]
  cases u.handlers[i]? <;> rfl

theorem shared_step_store (F : KeyStoreFormat Store) (password : JString) (s : Shared Store)
    (i : Nat) (written : Option Nat) :
    s.step F password (.store i written) =
      (s.handlers[i]?).elim s fun e => { s with content := s.write F e.2 written } := by
  simp only [Shared.step]
  cases s.handlers[i]? <;> rfl

/-- Every handler with a password gets the one of the key store. -/
theorem Shared.SamePassword.step (h : s.SamePassword password) (a : Action Store) :
    (s.step F password a).SamePassword password := by
  cases a with
  | construct process pw =>
      intro e he
      rcases List.mem_append.mp he with hold | hnew
      · exact h e hold
      · obtain ⟨handler, hopened, rfl⟩ :=
          Option.map_eq_some_iff.mp (Option.mem_toList.mp hnew)
        exact (of_opened hopened).imp id And.left
  | change i f => exact pw_modify (P := fun pw => pw = none ∨ pw = some password) h i f
  | store i written =>
      rw [shared_step_store]
      cases s.handlers[i]? with
      | none => exact h
      | some e => exact h
  | exit process => exact fun e he => h e (List.mem_of_mem_filter he)

/-- A handler writes the shared key store, or the beginning of one. -/
theorem Represents.write (h : Represents F password u s) {handler : KeyStoreHandler Store}
    (hpw : handler.pw = none ∨ handler.pw = some password) (written : Option Nat) :
    Represents F password ⟨finalState ((handler.store F written).run u.file), u.handlers⟩
      ⟨s.write F handler written, s.handlers⟩ := by
  rw [finalState_store]
  rcases handler with ⟨ks, pw⟩
  rcases hpw with rfl | rfl
  · exact ⟨h.handlers, h.pw, h.whole, h.remains⟩
  · cases written with
    | none => exact ⟨h.handlers, h.pw, h.whole, h.remains⟩
    | some n =>
        by_cases hlt : n < (F.store ks password).length
        · refine ⟨h.handlers, h.pw, ?_, ?_⟩
          · intro ks' hcontent
            simp [Shared.write, hlt] at hcontent
          · intro bs hcontent
            obtain rfl : (F.store ks password).take n = bs := by
              simpa [Shared.write, hlt] using hcontent
            refine ⟨rfl, ks, List.take_prefix _ _, ?_⟩
            intro hwhole
            have hlen := congrArg List.length hwhole
            rw [List.length_take] at hlen
            omega
        · refine ⟨h.handlers, h.pw, ?_, ?_⟩
          · intro ks' hcontent
            obtain rfl : ks = ks' := by simpa [Shared.write, hlt] using hcontent
            exact congrArg some (List.take_of_length_le (Nat.le_of_not_lt hlt))
          · intro bs hcontent
            simp [Shared.write, hlt] at hcontent

/-- The handlers and the file behave as one shared key store under one password. -/
theorem Represents.step (hF : F.Promises) (h : Represents F password u s) (a : Action Store) :
    Represents F password (Keystore.step F u a) (s.step F password a) := by
  have hpw := h.pw.step (F := F) a
  cases a with
  | construct process pw =>
      have hnew := h.run_new hF pw
      simp only [Shared.step] at hpw
      simp only [Keystore.step, Shared.step, hnew]
      cases hopened : s.opened F password pw with
      | none => simpa using h
      | some handler =>
          rw [hopened] at hpw
          exact ⟨congrArg (· ++ [(process, handler)]) h.handlers, hpw, h.whole, h.remains⟩
  | change i f => exact ⟨congrArg (List.modify · i _) h.handlers, hpw, h.whole, h.remains⟩
  | store i written =>
      rw [step_store, shared_step_store, h.handlers]
      cases hget : s.handlers[i]? with
      | none => exact h
      | some e =>
          have hwrite := h.write (h.pw e (List.mem_of_getElem? hget)) written
          rwa [h.handlers] at hwrite
  | exit process => exact ⟨congrArg (List.filter _) h.handlers, hpw, h.whole, h.remains⟩

/-! ## Runs -/

/-- After any run the handlers and the file still behave as the shared key store. -/
theorem represents_run (hF : F.Promises) (ks : Store) (password : JString)
    (actions : List (Action Store)) :
    Represents F password (run (step F) (stored F ks password) actions)
      (run (Shared.step F password) ⟨.whole ks, []⟩ actions) :=
  simulation (fun _ _ a h => h.step hF a) actions (represents_stored F ks password)

/-- Over any run, by any number of handlers in any processes: each handler with a password has
the one that the key store was stored under at first, and a handler is constructed with a
password exactly while the last write was not broken off and this is the one, and then on what
was written last.  So it is without a password, except that the format decides what becomes of
a file that breaks off. -/
theorem handlers_share_store (hF : F.Promises) (ks : Store) (password : JString)
    (actions : List (Action Store)) :
    (run (step F) (stored F ks password) actions).handlers =
        (run (Shared.step F password) ⟨.whole ks, []⟩ actions).handlers ∧
      (∀ e ∈ (run (step F) (stored F ks password) actions).handlers,
        e.2.pw = none ∨ e.2.pw = some password) ∧
      ∀ pw, (KeyStoreHandler.new F pw).run (run (step F) (stored F ks password) actions).file =
        ended (((run (Shared.step F password) ⟨.whole ks, []⟩ actions).opened F password pw).elim
            (.error .illegalArgument) .ok)
          (run (step F) (stored F ks password) actions).file := by
  have h := represents_run hF ks password actions
  refine ⟨h.handlers, ?_, h.run_new hF⟩
  rw [h.handlers]
  exact h.pw

/-! ## What can be had back -/

/-- A key store that the file holds, or a handler that could write it. -/
def Shared.Holds (password : JString) (s : Shared Store) (ks : Store) : Prop :=
  s.content = .whole ks ∨ ∃ e ∈ s.handlers, e.2 = ⟨ks, some password⟩

/-- Unless a key store is changed, none comes to be held that was not. -/
theorem Shared.Holds.of_step (hpw : s.SamePassword password) {a : Action Store}
    (ha : a.isChange = false) {ks : Store} (h : (s.step F password a).Holds password ks) :
    s.Holds password ks := by
  cases a with
  | construct process pw =>
      rcases h with hcontent | ⟨e, he, heq⟩
      · exact Or.inl hcontent
      · rcases List.mem_append.mp he with hold | hnew
        · exact Or.inr ⟨e, hold, heq⟩
        · obtain ⟨handler, hopened, rfl⟩ :=
            Option.map_eq_some_iff.mp (Option.mem_toList.mp hnew)
          simp only at heq
          subst heq
          rcases of_opened hopened with hnone | ⟨_, hcontent⟩
          · contradiction
          · exact Or.inl hcontent
  | change i f => contradiction
  | store i written =>
      rw [shared_step_store] at h
      cases hget : s.handlers[i]? with
      | none =>
          rw [hget] at h
          exact h
      | some e =>
          rw [hget] at h
          rcases h with hcontent | hhandler
          · simp only [Option.elim_some, Shared.write] at hcontent
            have hmem := List.mem_of_getElem? hget
            have hsame := hpw e hmem
            rcases e with ⟨process, ks', _ | pw⟩
            · exact Or.inl hcontent
            · cases written with
              | none => exact Or.inl hcontent
              | some n =>
                  simp only at hcontent
                  split at hcontent
                  · contradiction
                  · obtain rfl := Content.whole.inj hcontent
                    rcases hsame with hnone | hsome
                    · contradiction
                    · exact Or.inr ⟨_, hmem, by rw [← hsome]⟩
          · exact Or.inr hhandler
  | exit process =>
      rcases h with hcontent | ⟨e, he, heq⟩
      · exact Or.inl hcontent
      · exact Or.inr ⟨e, List.mem_of_mem_filter he, heq⟩

/-- So it is over a run without changes. -/
theorem Shared.Holds.of_run (hpw : s.SamePassword password) {more : List (Action Store)}
    (hmore : ∀ a ∈ more, a.isChange = false) {ks : Store}
    (h : (run (Shared.step F password) s more).Holds password ks) : s.Holds password ks := by
  by_contra hnot
  have hmeets : Meets (Shared.step F password) (fun _ a => a.isChange = false) s more := by
    rw [meets_iff]
    rintro pre a post rfl
    exact hmore a (by simp)
  have hkeeps : ∀ (s : Shared Store) (a : Action Store),
      s.SamePassword password ∧ ¬ s.Holds password ks → a.isChange = false →
        (s.step F password a).SamePassword password ∧
          ¬ (s.step F password a).Holds password ks :=
    fun s a hs ha => ⟨hs.1.step a, fun hstep => hs.2 (hstep.of_step hs.1 ha)⟩
  exact (hmeets.invariant hkeeps ⟨hpw, hnot⟩).2 h

/-- The key store is lost, and there is no handler that could write it again. -/
def Shared.Lost (s : Shared Store) : Prop :=
  (∀ ks, s.content ≠ .whole ks) ∧ ∀ e ∈ s.handlers, e.2.pw = none

/-- No action brings a lost key store back. -/
theorem Shared.Lost.step (h : s.Lost) (a : Action Store) : (s.step F password a).Lost := by
  obtain ⟨hcontent, hpw⟩ := h
  cases a with
  | construct process pw =>
      refine ⟨hcontent, ?_⟩
      intro e he
      rcases List.mem_append.mp he with hold | hnew
      · exact hpw e hold
      · obtain ⟨handler, hopened, rfl⟩ :=
          Option.map_eq_some_iff.mp (Option.mem_toList.mp hnew)
        rcases of_opened hopened with hnone | ⟨_, hwhole⟩
        · exact hnone
        · exact absurd hwhole (hcontent _)
  | change i f => exact ⟨hcontent, pw_modify (P := fun pw => pw = none) hpw i f⟩
  | store i written =>
      rw [shared_step_store]
      cases hget : s.handlers[i]? with
      | none => exact ⟨hcontent, hpw⟩
      | some e =>
          have hnone := hpw e (List.mem_of_getElem? hget)
          refine ⟨?_, hpw⟩
          simpa only [Option.elim_some, Shared.write, hnone] using hcontent
  | exit process => exact ⟨hcontent, fun e he => hpw e (List.mem_of_mem_filter he)⟩

/-- Nor does a run. -/
theorem Shared.Lost.run (h : s.Lost) (more : List (Action Store)) :
    (run (Shared.step F password) s more).Lost :=
  invariant more (fun _ a hs => hs.step a) h

/-- The password opens the key store that is there, and nothing else. -/
theorem Represents.run_new_iff (hF : F.Promises) (h : Represents F password u s)
    (handler : KeyStoreHandler Store) :
    (∃ file, (KeyStoreHandler.new F (some password)).run u.file = .ok handler file) ↔
      s.content = .whole handler.ks ∧ handler.pw = some password := by
  rw [h.run_new hF]
  unfold Shared.opened
  rcases handler with ⟨ks, pw⟩
  cases s.content with
  | remains bs => simp [ended]
  | whole ks' =>
      simp only [if_true, Option.elim_some, ended, EStateM.Result.ok.injEq,
        KeyStoreHandler.mk.injEq, Content.whole.injEq, exists_and_left, exists_eq', and_true]
      exact and_congr_right' eq_comm

/-- A handler with the password can write the key store whole. -/
theorem content_store_whole (F : KeyStoreFormat Store) {e : Nat × KeyStoreHandler Store} {i : Nat}
    (hget : s.handlers[i]? = some e) {pw : JString} (hpw : e.2.pw = some pw) :
    (s.step F password (.store i (some (F.store e.2.ks pw).length))).content =
      .whole e.2.ks := by
  rw [shared_step_store, hget]
  simp [Shared.write, hpw]

/-- What is held can be had back, by at most one write. -/
theorem exists_whole_of_holds {ks : Store} (h : s.Holds password ks) :
    ∃ more : List (Action Store), (∀ a ∈ more, a.isChange = false) ∧
      (run (Shared.step F password) s more).content = .whole ks := by
  rcases h with hcontent | ⟨e, hmem, heq⟩
  · exact ⟨[], fun a ha => absurd ha List.not_mem_nil, hcontent⟩
  · obtain ⟨i, hget⟩ := List.getElem?_of_mem hmem
    refine ⟨[.store i (some (F.store e.2.ks password).length)], ?_, ?_⟩
    · intro a ha
      rw [List.mem_singleton.mp ha]
      rfl
    · rw [run_cons, run_nil, content_store_whole F hget (by rw [heq]), heq]

/-- After a run and its continuation the password opens the key store that is there. -/
theorem new_after_iff (hF : F.Promises) (ks : Store) (password : JString)
    (actions more : List (Action Store)) (handler : KeyStoreHandler Store) :
    (∃ file, (KeyStoreHandler.new F (some password)).run
        (run (step F) (stored F ks password) (actions ++ more)).file = .ok handler file) ↔
      (run (Shared.step F password)
          (run (Shared.step F password) ⟨.whole ks, []⟩ actions) more).content =
        .whole handler.ks ∧ handler.pw = some password := by
  rw [← run_append]
  exact (represents_run hF ks password (actions ++ more)).run_new_iff hF handler

/-- After any run: the key stores that can still be had back, by any continuation that changes
none, are the one in the file, if the last write was not broken off, and those of the handlers
that are left and have the password.  If there are none of these, nothing can be had back by
any continuation. -/
theorem recoverable_iff (hF : F.Promises) (ks : Store) (password : JString)
    (actions : List (Action Store)) :
    (∀ ks', (∃ more, (∀ a ∈ more, a.isChange = false) ∧
        ∃ file, (KeyStoreHandler.new F (some password)).run
          (run (step F) (stored F ks password) (actions ++ more)).file =
            .ok ⟨ks', some password⟩ file) ↔
      (run (Shared.step F password) ⟨.whole ks, []⟩ actions).content = .whole ks' ∨
        ∃ e ∈ (run (step F) (stored F ks password) actions).handlers,
          e.2 = ⟨ks', some password⟩) ∧
    ((∃ more handler file, (KeyStoreHandler.new F (some password)).run
        (run (step F) (stored F ks password) (actions ++ more)).file = .ok handler file) ↔
      (∃ ks', (run (Shared.step F password) ⟨.whole ks, []⟩ actions).content = .whole ks') ∨
        ∃ e ∈ (run (step F) (stored F ks password) actions).handlers,
          e.2.pw = some password) := by
  have h := represents_run hF ks password actions
  have hopens := fun more handler => new_after_iff hF ks password actions more handler
  simp only [hopens, h.handlers]
  constructor
  · intro ks'
    constructor
    · rintro ⟨more, hmore, hcontent, _⟩
      exact Shared.Holds.of_run h.pw hmore (Or.inl hcontent)
    · intro hholds
      obtain ⟨more, hmore, hcontent⟩ := exists_whole_of_holds (F := F) hholds
      exact ⟨more, hmore, hcontent, trivial⟩
  · constructor
    · rintro ⟨more, handler, hcontent, _⟩
      by_contra hnot
      push Not at hnot
      have hlost : (run (Shared.step F password) ⟨.whole ks, []⟩ actions).Lost :=
        ⟨hnot.1, fun e he => (h.pw e he).resolve_right (hnot.2 e he)⟩
      exact (hlost.run more).1 handler.ks hcontent
    · intro hleft
      obtain ⟨ks', hholds⟩ : ∃ ks', (run (Shared.step F password) ⟨.whole ks, []⟩
          actions).Holds password ks' := by
        rcases hleft with ⟨ks', hcontent⟩ | ⟨⟨process, ks', pw⟩, hmem, rfl⟩
        · exact ⟨ks', Or.inl hcontent⟩
        · exact ⟨ks', Or.inr ⟨_, hmem, rfl⟩⟩
      obtain ⟨more, _, hcontent⟩ := exists_whole_of_holds (F := F) hholds
      exact ⟨more, ⟨ks', some password⟩, hcontent, rfl⟩

/-! ## A format to compute with -/

/-- A password, two bytes for a character behind a one, and a zero at the end. -/
def passwordBytes : JString → List UInt8
  | [] => [0]
  | u :: pw => 1 :: UInt8.ofNat (u.toNat / 256) :: UInt8.ofNat u.toNat :: passwordBytes pw

def readPassword : List UInt8 → Option JString
  | [0] => some []
  | 1 :: high :: low :: bs =>
      (readPassword bs).map (UInt16.ofNat (high.toNat * 256 + low.toNat) :: ·)
  | _ => none

theorem readPassword_passwordBytes (pw : JString) : readPassword (passwordBytes pw) = some pw := by
  induction pw with
  | nil => rfl
  | cons u pw ih =>
      have hunit : UInt16.ofNat ((UInt8.ofNat (u.toNat / 256)).toNat * 256 +
          (UInt8.ofNat u.toNat).toNat) = u := by
        have hlt := u.toNat_lt
        apply UInt16.toNat.inj
        rw [UInt16.toNat_ofNat', UInt8.toNat_ofNat', UInt8.toNat_ofNat']
        omega
      rw [passwordBytes, readPassword, ih, hunit]
      rfl

/-- No beginning of a password is a password. -/
theorem eq_of_prefix_passwordBytes {pw pw' : JString} {bs : List UInt8}
    (hcut : bs <+: passwordBytes pw) (h : readPassword bs = some pw') :
    bs = passwordBytes pw := by
  induction pw generalizing bs pw' with
  | nil =>
      rcases List.prefix_cons_iff.mp hcut with rfl | ⟨rest, rfl, hrest⟩
      · contradiction
      · rw [List.prefix_nil.mp hrest]
        rfl
  | cons u pw ih =>
      rcases List.prefix_cons_iff.mp hcut with rfl | ⟨rest, rfl, hrest⟩
      · contradiction
      rcases List.prefix_cons_iff.mp hrest with rfl | ⟨rest', rfl, hrest'⟩
      · contradiction
      rcases List.prefix_cons_iff.mp hrest' with rfl | ⟨bs', rfl, hbs'⟩
      · contradiction
      rw [readPassword] at h
      obtain ⟨pw'', hread, -⟩ := Option.map_eq_some_iff.mp h
      rw [ih hbs' hread, passwordBytes]

/-- A key store of one byte, and its password in clear, which only a load with a password looks
at. -/
def clearFormat : KeyStoreFormat UInt8 where
  load
    | [], _ => .error .io
    | ks :: _, none => .ok ks
    | ks :: bs, some pw => if readPassword bs = some pw then .ok ks else .error .io
  store ks pw := ks :: passwordBytes pw

/-- The format keeps its promises. -/
theorem clearFormat_promises : clearFormat.Promises where
  load_store ks pw := by
    simp [clearFormat, readPassword_passwordBytes]
  load_unverified ks pw := rfl
  verifies := by
    intro ks ks' pw pw' h
    simp only [clearFormat, readPassword_passwordBytes] at h
    split at h
    next hpw => exact (Option.some.inj hpw).symm
    next => contradiction
  refuses_cut := by
    intro ks ks' pw pw' bs hcut h
    rcases List.prefix_cons_iff.mp hcut with rfl | ⟨rest, rfl, hrest⟩
    · contradiction
    · simp only [clearFormat] at h
      split at h
      next hread =>
        rw [eq_of_prefix_passwordBytes hrest hread]
        rfl
      next => contradiction

/-- A changed key store, stored whole by one process, is what a handler is constructed on in
another; when the next write breaks off, only an unverified handler can be constructed. -/
theorem handlers_share_store_changed :
    (KeyStoreHandler.new clearFormat (some [0x70])).run
        (run (step clearFormat) (stored clearFormat 5 [0x70])
          [.construct 1 (some [0x70]), .construct 2 (some [0x71]), .change 0 (· + 1),
            .store 0 (some 5)]).file =
      .ok ⟨6, some [0x70]⟩ (some [6, 1, 0, 0x70, 0]) ∧
    (KeyStoreHandler.new clearFormat (some [0x70])).run
        (run (step clearFormat) (stored clearFormat 5 [0x70])
          [.construct 1 (some [0x70]), .store 0 (some 3), .exit 1]).file =
      .error .illegalArgument (some [5, 1, 0]) ∧
    (KeyStoreHandler.new clearFormat none).run
        (run (step clearFormat) (stored clearFormat 5 [0x70])
          [.construct 1 (some [0x70]), .store 0 (some 3), .exit 1]).file =
      .ok ⟨5, none⟩ (some [5, 1, 0]) :=
  ⟨(handlers_share_store clearFormat_promises 5 [0x70] _).2.2 (some [0x70]),
    (handlers_share_store clearFormat_promises 5 [0x70] _).2.2 (some [0x70]),
    (handlers_share_store clearFormat_promises 5 [0x70] _).2.2 none⟩

/-- A write that breaks off behind the first byte, by the only handler: the key store can be
had back while its process runs, and not when it has ended. -/
theorem recoverable_iff_cut :
    (∃ more, (∀ a ∈ more, a.isChange = false) ∧
      ∃ file, (KeyStoreHandler.new clearFormat (some [0x70])).run
        (run (step clearFormat) (stored clearFormat 5 [0x70])
          ([.construct 1 (some [0x70]), .store 0 (some 1)] ++ more)).file =
            .ok ⟨5, some [0x70]⟩ file) ∧
    ¬ ∃ more handler file, (KeyStoreHandler.new clearFormat (some [0x70])).run
      (run (step clearFormat) (stored clearFormat 5 [0x70])
        ([.construct 1 (some [0x70]), .store 0 (some 1), .exit 1] ++ more)).file =
          .ok handler file := by
  constructor
  · exact ((recoverable_iff clearFormat_promises 5 [0x70]
      [.construct 1 (some [0x70]), .store 0 (some 1)]).1 5).mpr
        (Or.inr ⟨(1, ⟨5, some [0x70]⟩), List.mem_cons_self, rfl⟩)
  · rw [(recoverable_iff clearFormat_promises 5 [0x70]
      [.construct 1 (some [0x70]), .store 0 (some 1), .exit 1]).2]
    rintro (⟨ks, hcontent⟩ | ⟨e, he, _⟩)
    · contradiction
    · exact absurd he List.not_mem_nil

end Keystore
end Mockbank
