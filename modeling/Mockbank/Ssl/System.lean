import Mathlib.Logic.Function.Basic
import Mockbank.Ssl.Link
import Mockbank.Transition.Run

/-!
# Any number of clients

The server accepts connections one after the other and handles each in a thread of its own;
all threads print to one `System.out`.  The steps of the threads and of the clients, the
arrival of bytes and the death of clients may come in any order.

Main results:

- Theorem `inv_step`: what every action preserves.
- Theorem `dialogues_safe`: what has been printed after any run.
- Theorem `dialogues_complete`: every connection comes to its end.
-/

namespace Mockbank
namespace Ssl

open Jvm Transition

variable {ι : Type}

/-! ## The system -/

/-- The connections, and the lines that the threads of the server have printed. -/
structure System (ι : Type) where
  link : ι → Link
  output : List JString

/-- No client has connected. -/
def System.initial : System ι := ⟨fun _ => .new, []⟩

section Step

variable [DecidableEq ι]

/-- One connection goes on, and the server prints. -/
def System.taken (s : System ι) (i : ι) (l : Link) (lines : List JString) : System ι :=
  ⟨Function.update s.link i l, s.output ++ lines⟩

/-- An action on a connection; one that cannot be taken changes nothing. -/
def step (pl : ι → Platform) (spl : Platform) (s : System ι) (e : ι × Action) : System ι :=
  match (s.link e.1).act (pl e.1) spl e.2 with
  | none => s
  | some (l, lines) => s.taken e.1 l lines

@[simp]
theorem taken_link_self (s : System ι) (i : ι) (l : Link) (lines : List JString) :
    (s.taken i l lines).link i = l := by
  simp [System.taken]

theorem taken_link_of_ne (s : System ι) {i j : ι} (h : j ≠ i) (l : Link)
    (lines : List JString) : (s.taken i l lines).link j = s.link j := by
  simp [System.taken, h]

end Step

variable {pl : ι → Platform} {spl : Platform}

/-- An action changes one connection or nothing. -/
theorem step_cases [DecidableEq ι] (s : System ι) (i : ι) (a : Action) :
    ((s.link i).act (pl i) spl a = none ∧ step pl spl s (i, a) = s) ∨
      ∃ l lines, (s.link i).act (pl i) spl a = some (l, lines) ∧
        step pl spl s (i, a) = s.taken i l lines := by
  cases hact : (s.link i).act (pl i) spl a with
  | none => exact Or.inl ⟨rfl, by simp [step, hact]⟩
  | some taken => exact Or.inr ⟨taken.1, taken.2, rfl, by simp [step, hact]⟩

/-! ## Safety -/

/-- The server has printed one line for each handler that has received something, of what it
has received. -/
structure Served (s : System ι) (served : List (ι × Option JString)) : Prop where
  nodup : (served.map Prod.fst).Nodup
  mem_iff : ∀ i, i ∈ served.map Prod.fst ↔ (s.link i).handler.hasReceived = true
  heard : ∀ e ∈ served, Heard (s.link e.1).client e.2
  output : s.output = served.map fun e => received e.2

/-- What has been heard of a client has been heard of it when it has died. -/
theorem Heard.mono {c c' : Client} {data : Option JString} (h : Heard c data)
    (hdead : c = .killed → c' = .killed) : Heard c' data := by
  rcases h with hquestion | ⟨hkilled, hprefix⟩
  · exact Or.inl hquestion
  · exact Or.inr ⟨hdead hkilled, hprefix⟩

/-- Whatever a connection does, what has been heard of it has been heard. -/
theorem Served.heard_taken [DecidableEq ι] {s : System ι} {served : List (ι × Option JString)}
    (h : Served s served) {i : ι} {l : Link} (hdead : (s.link i).client = .killed →
      l.client = .killed) (lines : List JString) :
    ∀ e ∈ served, Heard ((s.taken i l lines).link e.1).client e.2 := by
  intro e he
  by_cases hi : e.1 = i
  · have hheard := h.heard e he
    rw [hi] at hheard ⊢
    rw [taken_link_self]
    exact hheard.mono hdead
  · rw [taken_link_of_ne s hi]
    exact h.heard e he

/-- A handler that has not received anything new has not printed either. -/
theorem Served.taken_same [DecidableEq ι] {s : System ι} {served : List (ι × Option JString)}
    (h : Served s served) {i : ι} {l : Link}
    (hdead : (s.link i).client = .killed → l.client = .killed)
    (hsame : (s.link i).handler.hasReceived = l.handler.hasReceived) :
    Served (s.taken i l []) served where
  nodup := h.nodup
  mem_iff j := by
    by_cases hj : j = i
    · subst hj
      rw [taken_link_self, ← hsame, h.mem_iff]
    · rw [taken_link_of_ne s hj, h.mem_iff]
  heard := h.heard_taken hdead []
  output := by
    rw [← h.output]
    exact List.append_nil _

/-- A handler that has received something has printed one line of it. -/
theorem Served.taken_new [DecidableEq ι] {s : System ι} {served : List (ι × Option JString)}
    (h : Served s served) {i : ι} {l : Link}
    (hdead : (s.link i).client = .killed → l.client = .killed)
    (hbefore : (s.link i).handler.hasReceived = false) (hafter : l.handler.hasReceived = true)
    {data : Option JString} (hdata : Heard l.client data) :
    Served (s.taken i l [received data]) (served ++ [(i, data)]) where
  nodup := by
    have hnew : i ∉ served.map Prod.fst := by
      rw [h.mem_iff, hbefore]
      exact Bool.false_ne_true
    rw [List.map_append, List.nodup_append]
    refine ⟨h.nodup, by simp, ?_⟩
    intro j hj k hk
    rw [List.mem_singleton.mp hk]
    rintro rfl
    exact hnew hj
  mem_iff j := by
    rw [List.map_append, List.mem_append, List.map_singleton, List.mem_singleton]
    by_cases hj : j = i
    · subst hj
      rw [taken_link_self]
      exact iff_of_true (Or.inr rfl) hafter
    · rw [taken_link_of_ne s hj, ← h.mem_iff]
      simp [hj]
  heard e he := by
    rcases List.mem_append.mp he with hold | hnew
    · exact h.heard_taken hdead _ e hold
    · rw [List.mem_singleton.mp hnew, taken_link_self]
      exact hdata
  output := by
    rw [List.map_append, ← h.output]
    rfl

/-- Every connection is consistent, and every printed line has its handler. -/
structure Inv (pl : ι → Platform) (spl : Platform) (s : System ι) : Prop where
  consistent : ∀ i, (s.link i).Consistent (pl i) spl
  served : ∃ served, Served s served

theorem inv_initial : Inv pl spl (System.initial : System ι) where
  consistent i := consistent_new (pl i) spl
  served := ⟨[], List.nodup_nil, by simp [System.initial, Link.new, Handler.hasReceived],
    fun e he => absurd he List.not_mem_nil, rfl⟩

/-- What every action preserves. -/
theorem inv_step [DecidableEq ι] {s : System ι} (h : Inv pl spl s) (e : ι × Action) :
    Inv pl spl (step pl spl s e) := by
  rcases e with ⟨i, a⟩
  rcases step_cases s i a with ⟨_, hstep⟩ | ⟨l, lines, hact, hstep⟩
  · rwa [hstep]
  · have hfollows := (h.consistent i).act hact
    obtain ⟨served, hserved⟩ := h.served
    rw [hstep]
    constructor
    · intro j
      by_cases hj : j = i
      · subst hj
        rw [taken_link_self]
        exact hfollows.consistent
      · rw [taken_link_of_ne s hj]
        exact h.consistent j
    · by_cases hsame : (s.link i).handler.hasReceived = l.handler.hasReceived
      · rw [hfollows.silent hsame]
        exact ⟨served, hserved.taken_same hfollows.dead hsame⟩
      · obtain ⟨data, hdata, hlines⟩ := hfollows.prints hsame
        rw [hlines]
        cases hbefore : (s.link i).handler.hasReceived with
        | true => exact absurd (hbefore.trans (hfollows.stays hbefore).symm) hsame
        | false =>
            rw [hbefore] at hsame
            exact ⟨_, hserved.taken_new hfollows.dead hbefore
              (Bool.eq_true_of_not_eq_false fun hf => hsame hf.symm) hdata⟩

/-- After any run of any number of clients, some of which may have died, a client has
printed the answer or nothing, and has printed it only after the server has printed what it
received.  The server has printed one line for each handler that has received something: the
question, when the client lives, and the question, a beginning of it or `null` when the client
has died. -/
theorem dialogues_safe [DecidableEq ι] (pl : ι → Platform) (spl : Platform)
    (actions : List (ι × Action)) :
    (∀ i text, ((run (step pl spl) .initial actions).link i).client.text? = some text →
      text = answer ∧
        ((run (step pl spl) .initial actions).link i).handler.hasReceived = true) ∧
    ∃ served : List (ι × Option JString), (served.map Prod.fst).Nodup ∧
      (∀ i, i ∈ served.map Prod.fst ↔
        ((run (step pl spl) .initial actions).link i).handler.hasReceived = true) ∧
      (run (step pl spl) .initial actions).output = served.map (fun e => received e.2) ∧
      ∀ e ∈ served, received e.2 = lit "received: Who is Nash?" ∨
        ((run (step pl spl) .initial actions).link e.1).client = .killed ∧
          ∀ text, e.2 = some text → text <+: question := by
  have hinv : Inv pl spl (run (step pl spl) .initial actions) :=
    invariant actions (fun s e h => inv_step h e) inv_initial
  refine ⟨fun i text htext => (hinv.consistent i).of_text htext, ?_⟩
  obtain ⟨served, hserved⟩ := hinv.served
  refine ⟨served, hserved.nodup, hserved.mem_iff, hserved.output, ?_⟩
  intro e he
  rcases hserved.heard e he with hquestion | hkilled
  · left
    rw [hquestion, received_question]
  · exact Or.inr hkilled

/-! ## The end -/

/-- An action on the connection that can be taken. -/
def takenOn [DecidableEq ι] (pl : ι → Platform) (spl : Platform) (i : ι) (s : System ι)
    (e : ι × Action) : Bool :=
  e.1 = i ∧ ((s.link i).act (pl i) spl e.2).isSome

/-- What is still to be done on one connection. -/
def todoOn (pl : ι → Platform) (spl : Platform) (i : ι) (s : System ι) : Nat :=
  (s.link i).todo (pl i) spl

/-- What is still to be done on a connection falls with each action on it and stays as it is
with every other. -/
theorem todo_step [DecidableEq ι] (i : ι) (s : System ι) (e : ι × Action) :
    (takenOn pl spl i s e = true → todoOn pl spl i (step pl spl s e) < todoOn pl spl i s) ∧
    (takenOn pl spl i s e = false → todoOn pl spl i (step pl spl s e) ≤ todoOn pl spl i s) := by
  rcases e with ⟨j, a⟩
  unfold todoOn
  by_cases hi : j = i
  · subst hi
    rcases step_cases s j a with ⟨hact, hstep⟩ | ⟨l, lines, hact, hstep⟩
    · rw [hstep]
      simp [takenOn, hact]
    · have hlt := todo_act_lt hact
      rw [hstep, taken_link_self]
      exact ⟨fun _ => hlt, fun _ => Nat.le_of_lt hlt⟩
  · have hsame : (step pl spl s (j, a)).link i = s.link i := by
      rcases step_cases s j a with ⟨_, hstep⟩ | ⟨l, lines, _, hstep⟩
      · rw [hstep]
      · rw [hstep, taken_link_of_ne s (Ne.symm hi)]
    rw [hsame]
    simp [takenOn, hi]

/-- A client that nothing kills lives. -/
theorem client_ne_killed [DecidableEq ι] {i : ι} {actions : List (ι × Action)}
    (hlives : ∀ e ∈ actions, e.1 = i → e.2.isKill = false) :
    ((run (step pl spl) .initial actions).link i).client ≠ .killed := by
  have hmeets : Meets (step pl spl) (fun _ e => e.1 = i → e.2.isKill = false) .initial
      actions := by
    rw [meets_iff]
    rintro pre e post rfl
    exact hlives e (by simp)
  have hlive : ∀ s e, (s.link i).client ≠ .killed → (e.1 = i → e.2.isKill = false) →
      ((step pl spl s e).link i).client ≠ .killed := by
    rintro s ⟨j, a⟩ hs hok
    rcases step_cases s j a with ⟨_, hstep⟩ | ⟨l, lines, hact, hstep⟩
    · rwa [hstep]
    · rw [hstep]
      by_cases hj : i = j
      · subst hj
        rw [taken_link_self]
        exact act_ne_killed hact (hok rfl) hs
      · rwa [taken_link_of_ne s hj]
  exact hmeets.invariant hlive fun h => by contradiction

/-- However the actions on other connections come in between, and whoever dies there: only
so many actions can be taken on one connection, and when none is left, and nothing has killed
its client, the client has printed the answer and both sockets are closed. -/
theorem dialogues_complete [DecidableEq ι] (pl : ι → Platform) (spl : Platform)
    (actions : List (ι × Action)) (i : ι) :
    countSteps (step pl spl) (takenOn pl spl i) .initial actions ≤
      ((pl i).println question).length + (spl.println answer).length + 12 ∧
    ((∀ e ∈ actions, e.1 = i → e.2.isKill = false) →
      ¬ ((run (step pl spl) .initial actions).link i).CanGoOn (pl i) spl →
      ((run (step pl spl) .initial actions).link i).client = .done answer ∧
        ((run (step pl spl) .initial actions).link i).handler = .closed) := by
  constructor
  · have hle : countSteps (step pl spl) (takenOn pl spl i) .initial actions ≤
        todoOn pl spl i .initial :=
      countSteps_le_measure (fun s e => (todo_step i s e).1) (fun s e => (todo_step i s e).2)
        .initial actions
    have hinitial : todoOn pl spl i .initial =
        ((pl i).println question).length + 6 + ((spl.println answer).length + 6) := rfl
    omega
  · intro hlives hstuck
    have hinv : Inv pl spl (run (step pl spl) .initial actions) :=
      invariant actions (fun s e h => inv_step h e) inv_initial
    rcases (hinv.consistent i).progress (client_ne_killed hlives) with hdone | hgoes
    · exact hdone
    · exact absurd hgoes hstuck

end Ssl
end Mockbank
