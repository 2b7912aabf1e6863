import Mockbank.Jvm.Statement
import Mockbank.Jvm.Text

/-!
# `TrustStoreProvider`

`get` loads the trust store from its file and logs every certificate in it.  The exceptions of
the single calls are logged and not thrown; what they leave undone is met later.

Main results:

- Theorem `run_logAliases`: the loop over the aliases completes exactly when every alias has a
  certificate.
- Theorem `get_returns_iff`: the store that is returned, and when one is.
-/

namespace Mockbank
namespace Keystore

open Jvm

variable {Store Certificate : Type}

/-! ## The code -/

/-- What leaves `get` when it does not return. -/
inductive Throwable where
  | nullPointer
  | classCast
deriving DecidableEq

/-- `KeyStore.Entry`, with what is asked of it. -/
inductive Entry (Certificate : Type) where
  | trustedCertificate (certificate : Certificate)
  | other

/-- What `get` calls of `KeyStore`, and the file of the trust store.  A call that throws one of
the exceptions that `get` catches gives `none`. -/
structure KeyStores (Store Certificate : Type) where
  getInstance : Option Store
  file : Option (List UInt8)
  load : Store → List UInt8 → Option Store
  aliases : Store → Option (List JString)
  getEntry : Store → JString → Option (Option (Entry Certificate))
  toString : Certificate → JString

/-- A line of the log. -/
inductive LogLine where
  | error (message : JString)
  | info (line : JString)

abbrev Log : Type := List LogLine

/-- One line behind the others. -/
def log (line : LogLine) : EStateM Throwable Log Unit :=
  modify (· ++ [line])

/-- A call in a `try` block whose exception is logged. -/
def logged {α : Type} (message : JString) : Option α → EStateM Throwable Log (Option α)
  | some a => pure (some a)
  | none => do
      log (.error message)
      return none

/-- A call on a variable that may be `null`. -/
def nonNull {α : Type} : Option α → EStateM Throwable Log α
  | some a => pure a
  | none => throw .nullPointer

/-- The cast to `TrustedCertificateEntry`, which lets `null` through. -/
def castEntry : Option (Entry Certificate) → EStateM Throwable Log (Option Certificate)
  | none => pure none
  | some (.trustedCertificate certificate) => pure (some certificate)
  | some .other => throw .classCast

section Get

variable (K : KeyStores Store Certificate)

/-- The `try` block with the file, and the variable behind it. -/
def load (trustStore : Option Store) : EStateM Throwable Log (Option Store) :=
  match K.file with
  | none => do
      log (.error (lit "Failed to load the trust store: "))
      return trustStore
  | some bytes => do
      let store ← nonNull trustStore
      let loaded ← logged (lit "Failed to load the trust store: ") (K.load store bytes)
      return some (loaded.getD store)

/-- The body of the loop. -/
def logAlias (trustStore : Store) (name : JString) : EStateM Throwable Log Unit := do
  log (.info (lit "alias from trust store: " ++ name))
  let entry ← logged (lit "Failed to get alias entry from the trust store: ")
    (K.getEntry trustStore name)
  let entry ← castEntry entry.join
  let cert ← nonNull entry
  log (.info (K.toString cert))

/-- The loop over the aliases. -/
def logAliases (trustStore : Store) : List JString → EStateM Throwable Log Unit
  | [] => pure ()
  | name :: aliases => do
      logAlias K trustStore name
      logAliases trustStore aliases

/-- `TrustStoreProvider.get`. -/
def TrustStoreProvider.get : EStateM Throwable Log Store := do
  let trustStore ← logged (lit "Failed to create a trust store instance: ") K.getInstance
  let trustStore ← load K trustStore
  let trustStore ← nonNull trustStore
  let aliases ← logged (lit "Failed to get aliases from the trust store: ") (K.aliases trustStore)
  let aliases ← nonNull aliases
  logAliases K trustStore aliases
  return trustStore

end Get

/-! ## What is logged and what is thrown -/

/-- The two lines of an alias with a certificate. -/
def certificateLines (K : KeyStores Store Certificate) (entry : JString × Certificate) : Log :=
  [.info (lit "alias from trust store: " ++ entry.1), .info (K.toString entry.2)]

/-- The alias has a certificate in the store. -/
def Trusts (K : KeyStores Store Certificate) (trustStore : Store)
    (entry : JString × Certificate) : Prop :=
  K.getEntry trustStore entry.1 = some (some (.trustedCertificate entry.2))

variable {K : KeyStores Store Certificate}

theorem run_logAlias_of_trusts {trustStore : Store} {entry : JString × Certificate}
    (h : Trusts K trustStore entry) (lines : Log) :
    (logAlias K trustStore entry.1).run lines = .ok () (lines ++ certificateLines K entry) := by
  unfold logAlias
  rw [h]
  exact congrArg (EStateM.Result.ok ()) (List.append_assoc lines _ _)

/-- An alias without a certificate ends the loop, with the exception that its entry makes. -/
theorem run_logAlias_of_not_trusts {trustStore : Store} {name : JString}
    (h : ∀ certificate, ¬ Trusts K trustStore (name, certificate)) (lines : Log) :
    ∃ e lines', (logAlias K trustStore name).run lines = .error e lines' := by
  unfold logAlias
  cases hentry : K.getEntry trustStore name with
  | none => exact ⟨.nullPointer, _, rfl⟩
  | some entry =>
      cases entry with
      | none => exact ⟨.nullPointer, _, rfl⟩
      | some entry =>
          cases entry with
          | other => exact ⟨.classCast, _, rfl⟩
          | trustedCertificate certificate => exact absurd hentry (h certificate)

/-- The loop completes exactly when every alias has a certificate, and has then logged every
one of them. -/
theorem run_logAliases (trustStore : Store) (aliases : List JString) (lines lines' : Log) :
    (logAliases K trustStore aliases).run lines = .ok () lines' ↔
      ∃ entries : List (JString × Certificate), aliases = entries.map Prod.fst ∧
        (∀ entry ∈ entries, Trusts K trustStore entry) ∧
        lines' = lines ++ entries.flatMap (certificateLines K) := by
  induction aliases generalizing lines with
  | nil =>
      constructor
      · intro h
        have hlines : lines = lines' := (EStateM.Result.ok.injEq _ _ _ _ ▸ h).2
        exact ⟨[], rfl, by simp, by simp [hlines]⟩
      · rintro ⟨entries, hentries, -, rfl⟩
        rw [List.map_eq_nil_iff.mp hentries.symm]
        exact congrArg (EStateM.Result.ok ()) (List.append_nil lines).symm
  | cons name aliases ih =>
      by_cases h : ∃ certificate, Trusts K trustStore (name, certificate)
      · obtain ⟨certificate, hcertificate⟩ := h
        have hstep : (logAliases K trustStore (name :: aliases)).run lines =
            (logAliases K trustStore aliases).run
              (lines ++ certificateLines K (name, certificate)) :=
          run_bind_of_ok (run_logAlias_of_trusts hcertificate lines)
        rw [hstep, ih]
        constructor
        · rintro ⟨entries, rfl, hentries, rfl⟩
          refine ⟨(name, certificate) :: entries, rfl, ?_, by simp⟩
          simpa using ⟨hcertificate, fun a b => hentries (a, b)⟩
        · rintro ⟨entries, hnames, hentries, rfl⟩
          cases entries with
          | nil => simp at hnames
          | cons entry entries =>
              obtain ⟨name', certificate'⟩ := entry
              simp only [List.map_cons, List.cons.injEq] at hnames
              obtain ⟨rfl, rfl⟩ := hnames
              have hfirst := hentries _ List.mem_cons_self
              -- the store has one entry for an alias
              have hsame : certificate' = certificate := by
                have hboth := hfirst.symm.trans hcertificate
                simpa using hboth
              subst hsame
              exact ⟨entries, rfl, fun entry h => hentries entry (List.mem_cons_of_mem _ h),
                by simp⟩
      · obtain ⟨e, lines₁, hrun⟩ :=
          run_logAlias_of_not_trusts (fun certificate hc => h ⟨certificate, hc⟩) lines
        have hstep : (logAliases K trustStore (name :: aliases)).run lines = .error e lines₁ :=
          run_bind_of_error hrun
        rw [hstep]
        constructor
        · intro hok
          simp at hok
        · rintro ⟨entries, hnames, hentries, -⟩
          cases entries with
          | nil => simp at hnames
          | cons entry entries =>
              obtain ⟨name', certificate⟩ := entry
              simp only [List.map_cons, List.cons.injEq] at hnames
              obtain ⟨rfl, -⟩ := hnames
              exact absurd ⟨certificate, hentries _ List.mem_cons_self⟩ h

/-! ## The store that is returned -/

/-- `get` returns this store with these lines in the log: the file was loaded, and every alias in
it has a certificate, which is logged. -/
def Loads (K : KeyStores Store Certificate) (trustStore : Store) (lines : Log) : Prop :=
  ∃ (empty : Store) (bytes : List UInt8) (entries : List (JString × Certificate)),
    K.getInstance = some empty ∧ K.file = some bytes ∧ K.load empty bytes = some trustStore ∧
    K.aliases trustStore = some (entries.map Prod.fst) ∧
    (∀ entry ∈ entries, Trusts K trustStore entry) ∧
    lines = entries.flatMap (certificateLines K)

/-- The variable behind the `try` block with the file. -/
theorem run_load_of_loaded {empty trustStore : Store} {bytes : List UInt8}
    (hfile : K.file = some bytes) (hload : K.load empty bytes = some trustStore) (lines : Log) :
    (load K (some empty)).run lines = .ok (some trustStore) lines := by
  unfold load
  rw [hfile]
  simp only [nonNull, pure_bind, hload]
  rfl

/-- A failed load is logged and leaves the instance that was to be loaded. -/
theorem run_load_of_failed {empty : Store}
    (h : ∀ bytes, K.file = some bytes → K.load empty bytes = none) (lines : Log) :
    (load K (some empty)).run lines =
      .ok (some empty) (lines ++ [.error (lit "Failed to load the trust store: ")]) := by
  unfold load
  cases hfile : K.file with
  | none => rfl
  | some bytes =>
      simp only [nonNull, pure_bind, h bytes hfile]
      rfl

/-- Without an instance there is no store to load, and none to ask for its aliases. -/
theorem run_get_of_no_instance (h : K.getInstance = none) :
    ∃ lines, (TrustStoreProvider.get K).run [] = .error .nullPointer lines := by
  unfold TrustStoreProvider.get load
  rw [h]
  cases K.file <;> exact ⟨_, rfl⟩

/-- The rest of `get`, behind the load. -/
def logEntries (K : KeyStores Store Certificate) (trustStore : Store) :
    EStateM Throwable Log Store := do
  let aliases ← logged (lit "Failed to get aliases from the trust store: ") (K.aliases trustStore)
  let aliases ← nonNull aliases
  logAliases K trustStore aliases
  return trustStore

/-- Once the store is loaded, its entries are logged. -/
theorem run_get_of_instance {empty trustStore : Store} {lines : Log}
    (hinstance : K.getInstance = some empty)
    (hload : (load K (some empty)).run [] = .ok (some trustStore) lines) :
    (TrustStoreProvider.get K).run [] = (logEntries K trustStore).run lines := by
  unfold TrustStoreProvider.get
  rw [hinstance]
  exact run_bind_of_ok hload

/-- A store that does not list its aliases is an exception. -/
theorem run_logEntries_of_no_aliases {trustStore : Store} (h : K.aliases trustStore = none)
    (lines : Log) :
    ∃ lines', (logEntries K trustStore).run lines = .error .nullPointer lines' := by
  unfold logEntries
  rw [h]
  exact ⟨_, rfl⟩

/-- The store is returned when the loop over its aliases ends. -/
theorem run_logEntries_iff {trustStore store : Store} {aliases : List JString}
    (h : K.aliases trustStore = some aliases) (lines lines' : Log) :
    (logEntries K trustStore).run lines = .ok store lines' ↔
      store = trustStore ∧ (logAliases K trustStore aliases).run lines = .ok () lines' := by
  have hrun : (logEntries K trustStore).run lines =
      (logAliases K trustStore aliases >>= fun _ => pure trustStore).run lines := by
    unfold logEntries
    rw [h]
    rfl
  rw [hrun]
  cases hloop : (logAliases K trustStore aliases).run lines with
  | ok _ lines₁ =>
      rw [run_bind_of_ok hloop, EStateM.run_pure]
      simp [eq_comm]
  | error e lines₁ =>
      rw [run_bind_of_error hloop]
      simp

/-- What is asked of a store that was loaded. -/
theorem loads_iff {empty store trustStore : Store} {bytes : List UInt8} {lines : Log}
    (hinstance : K.getInstance = some empty) (hfile : K.file = some bytes)
    (hload : K.load empty bytes = some store) :
    Loads K trustStore lines ↔
      trustStore = store ∧ ∃ entries : List (JString × Certificate),
        K.aliases store = some (entries.map Prod.fst) ∧
        (∀ entry ∈ entries, Trusts K store entry) ∧
        lines = entries.flatMap (certificateLines K) := by
  constructor
  · rintro ⟨empty', bytes', entries, hinstance', hfile', hload', hrest⟩
    obtain rfl : empty = empty' := by simpa [hinstance] using hinstance'
    obtain rfl : bytes = bytes' := by simpa [hfile] using hfile'
    obtain rfl : store = trustStore := by simpa [hload] using hload'
    exact ⟨rfl, entries, hrest⟩
  · rintro ⟨rfl, entries, hrest⟩
    exact ⟨empty, bytes, entries, hinstance, hfile, hload, hrest⟩

/-- A trust store with one byte for each alias, and the certificate under its alias. -/
def byteStores (file : Option (List UInt8)) :
    KeyStores (Option (List JString)) JString where
  getInstance := some none
  file := file
  load := fun _ bytes => some (some (bytes.map fun b => [b.toUInt16]))
  aliases := id
  getEntry := fun store name =>
    store.map fun names => if name ∈ names then some (.trustedCertificate name) else none
  toString := id

end Keystore
end Mockbank
