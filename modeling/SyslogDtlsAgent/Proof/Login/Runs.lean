import SyslogDtlsAgent.Proof.Login.Gate
import SyslogDtlsAgent.Library.Provenance

/-!
# Runs of the gate

Requests are handled one after the other, so a run is a list of exchanges. The history of a run keeps
for every request the state it met, the state it left and what came of it; a browser sees the request
and the answer only, and the predicates below that describe a turn read little more.
-/

namespace SyslogDtlsAgent

open Library

/-- One request of a run. -/
structure Turn where
  before : Auth
  exchange : Exchange
  after : Auth
  outcome : Outcome

def turn (lib : External) (auth : Auth) (x : Exchange) : Turn where
  before := auth
  exchange := x
  after := (auth.gate lib x).1
  outcome := (auth.gate lib x).2

/-- The gate of an agent with logins, from its start. -/
def logins (lib : External) (config : Oidc) (url : Url) (authority : String) : Machine Auth Exchange Turn where
  init := Auth.start config url authority
  next auth x := (turn lib auth x).after
  emit auth x := [turn lib auth x]

/-- The runs start where `Auth::new` does. -/
theorem Auth.eq_start_of_new {lib : External} {config : Oidc} {built : Bool} {auth : Auth}
    (h : Auth.new lib config built = .ok (some (some auth))) :
    ∃ url authority, auth = Auth.start config url authority := by
  simp only [Auth.new, bind_eq_ok] at h
  obtain ⟨-, -, h⟩ := h
  split at h
  · cases h
  simp only [bind_eq_ok] at h
  obtain ⟨url, -, h⟩ := h
  split at h
  · rename_i authority hauthority
    simp only [bind_eq_ok] at h
    obtain ⟨-, -, h⟩ := h
    cases h
    exact ⟨url, authority, rfl⟩
  · cases h

namespace Turn

/-- A request of one route, answered with one status code. -/
def Answered (t : Turn) (method : Method) (path : String) (code : Nat) : Prop :=
  t.exchange.request.method = method ∧ t.exchange.request.path = path ∧
    ∃ response, t.outcome = .reply response ∧ response.code = code

/-- The answer sets a cookie. -/
def SetsCookie (t : Turn) (kind value : String) (age : Nat) : Prop :=
  ∃ response, t.outcome = .reply response ∧ ("Set-Cookie", t.before.cookie kind value age) ∈ response.headers

/-- The cookie of a kind that the request carries. -/
def presents (t : Turn) (kind : String) : Option String := t.before.presented kind t.exchange.request

def Real (lib : External) (t : Turn) : Prop :=
  Auth.Passage lib (t.before.prune t.exchange.answers.entered) t.exchange t.after t.outcome

end Turn

theorem turn_real (lib : External) (auth : Auth) (x : Exchange) : (turn lib auth x).Real lib :=
  Auth.gate_passage lib auth x

variable {lib : External} {config : Oidc} {url : Url} {authority : String}

/-- Every turn of a history is a call of `gate`, and the settings are those of the start. -/
theorem real_of_mem_trace {history : List Exchange} {t : Turn}
    (ht : t ∈ (logins lib config url authority).trace history) :
    t.Real lib ∧ t.before.settings = (Auth.start config url authority).settings := by
  let M := logins lib config url authority
  have h := M.induction (P := fun auth turns =>
      auth.settings = M.init.settings ∧ ∀ t ∈ turns, t.Real lib ∧ t.before.settings = M.init.settings)
    ⟨rfl, by simp⟩
    (by
      rintro auth turns x ⟨hsettings, hturns⟩
      refine ⟨(turn_real lib auth x).settings.trans hsettings, fun t ht => ?_⟩
      rcases List.mem_append.mp ht with ht | ht
      · exact hturns t ht
      · rw [List.mem_singleton.mp ht]
        exact ⟨turn_real lib auth x, hsettings⟩)
    history
  exact h.2 t ht

/-- The turn at a position, and the history that leads up to it. -/
theorem turn_at {history : List Exchange} {j : Nat} {t : Turn}
    (ht : ((logins lib config url authority).trace history)[j]? = some t) :
    t.Real lib ∧ t.before = (logins lib config url authority).run (history.take j) ∧
      ((logins lib config url authority).trace history).take j =
        (logins lib config url authority).trace (history.take j) := by
  obtain ⟨hget, htake⟩ := (logins lib config url authority).traceFrom_in_step (f := turn lib)
    (fun auth x => rfl) (Auth.start config url authority) history j
  obtain ⟨x, -, rfl⟩ := Option.map_eq_some_iff.mp (hget.symm.trans ht)
  exact ⟨turn_real lib _ x, rfl, htake⟩

theorem eq_turn {history : List Exchange} {j : Nat} {t : Turn}
    (ht : ((logins lib config url authority).trace history)[j]? = some t) :
    t = turn lib t.before t.exchange := by
  obtain ⟨hget, -⟩ := (logins lib config url authority).traceFrom_in_step (f := turn lib)
    (fun auth x => rfl) (Auth.start config url authority) history j
  obtain ⟨x, -, rfl⟩ := Option.map_eq_some_iff.mp (hget.symm.trans ht)
  rfl

/-- What holds of a key before a turn goes back to an earlier turn of the same run. -/
theorem issued_before {κ : Type*} {Issues Ends : Turn → κ → Prop} {history : List Exchange} {j : Nat}
    {t : Turn} {key : κ} (ht : ((logins lib config url authority).trace history)[j]? = some t)
    (hissued : Issued Issues Ends ((logins lib config url authority).trace (history.take j)) key) :
    ∃ i issue, i < j ∧ ((logins lib config url authority).trace history)[i]? = some issue ∧
      Issues issue key ∧ ∀ m u, i < m → m < j →
        ((logins lib config url authority).trace history)[m]? = some u → ¬Ends u key := by
  obtain ⟨-, -, htake⟩ := turn_at ht
  obtain ⟨i, issue, hissue, hissues, hsince⟩ := hissued.index
  rw [← htake, List.getElem?_take] at hissue
  split at hissue
  · rename_i hlt
    refine ⟨i, issue, hlt, hissue, hissues, fun m u hm hmj hu => hsince m u hm ?_⟩
    rw [← htake, List.getElem?_take, if_pos hmj, hu]
  · cases hissue

end SyslogDtlsAgent
