import Mathlib.Algebra.BigOperators.Group.Finset.Piecewise
import Mathlib.Algebra.BigOperators.Ring.Finset
import Mathlib.Algebra.Order.BigOperators.Group.Finset
import Mathlib.Data.Fintype.Card
import UnixPrograms.Socket.UdpService

/-!
# All clients of the UDP server

The clients of the service differ in their ids, and the table has a row for
each of them.  Then every step of the service is one step of each client's
conversation, so that each client gets what it would get if it were alone.
-/

namespace UnixPrograms
namespace Socket

open Foundation

variable {capacity : Nat}

section Step

variable {client : Type}

def ServiceEvent.WritesText : ServiceEvent client -> Prop
  | ServiceEvent.own _ e => Socket.WritesText e
  | ServiceEvent.serve _ => True

instance (l : ServiceEvent client) : Decidable l.WritesText :=
  match l with
  | ServiceEvent.own _ e => inferInstanceAs (Decidable (WritesText e))
  | ServiceEvent.serve _ => isTrue trivial

/-- An event as one client sees it; `data` is the master's array behind it. -/
def ServiceEvent.seen [DecidableEq client] (who : client) (data : Bytes) :
    ServiceEvent client -> ConversationEvent
  | ServiceEvent.own other e =>
      if other = who then e else ConversationEvent.others data
  | ServiceEvent.serve other =>
      if other = who then ConversationEvent.serve
      else ConversationEvent.others data

theorem ServiceEvent.WritesText.seen [DecidableEq client]
    {l : ServiceEvent client} (h : l.WritesText) (who : client) (data : Bytes) :
    Socket.WritesText (l.seen who data) := by
  cases l with
  | own other e =>
      by_cases heq : other = who
      · rw [ServiceEvent.seen, if_pos heq]
        exact h
      · rw [ServiceEvent.seen, if_neg heq]
        trivial
  | serve other =>
      by_cases heq : other = who
      · rw [ServiceEvent.seen, if_pos heq]
        trivial
      · rw [ServiceEvent.seen, if_neg heq]
        trivial

theorem seen_eq_send [DecidableEq client] {l : ServiceEvent client}
    {who : client} {data : Bytes}
    {size : Nat} :
    l.seen who data = ConversationEvent.send size <->
      l = ServiceEvent.own who (ConversationEvent.send size) := by
  cases l with
  | own other e =>
      by_cases heq : other = who
      · simp [ServiceEvent.seen, heq]
      · simp [ServiceEvent.seen, heq]
  | serve other =>
      by_cases heq : other = who
      · simp [ServiceEvent.seen, heq]
      · simp [ServiceEvent.seen, heq]

theorem mem_seen_send [DecidableEq client] {who : client}
    {events : List (ServiceEvent client)} {keys : List ConversationEvent}
    (h : List.Forall₂ (fun l k => exists data, k = l.seen who data) events keys)
    {size : Nat} :
    ConversationEvent.send size ∈ keys <->
      ServiceEvent.own who (ConversationEvent.send size) ∈ events := by
  constructor
  · intro hmem
    rcases exists_mem_of_forall₂ h hmem with ⟨l, hl, data, hseen⟩
    rw [seen_eq_send.mp hseen.symm] at hl
    exact hl
  · intro hmem
    rcases exists_mem_of_forall₂ h.flip hmem with ⟨k, hk, data, hseen⟩
    rw [hseen, seen_eq_send.mpr rfl] at hk
    exact hk

theorem seen_writesTexts [DecidableEq client] {who : client}
    {events : List (ServiceEvent client)} {keys : List ConversationEvent}
    (hwrites : forall l, l ∈ events -> l.WritesText)
    (h : List.Forall₂ (fun l k => exists data, k = l.seen who data) events keys) :
    forall k, k ∈ keys -> WritesText k := by
  intro k hk
  rcases exists_mem_of_forall₂ h hk with ⟨l, hl, data, hseen⟩
  rw [hseen]
  exact (hwrites l hl).seen who data

/-- Clients with ids of their own, not more than the table has rows, that type
texts. -/
structure Clients [Fintype client] (ids inputs : client -> Bytes) : Prop where
  isId : forall who, IsClientId (ids who)
  distinct : forall who other,
    idNumber (ids who) = idNumber (ids other) -> who = other
  room : Fintype.card client ≤ MAX_CLIENTS_COUNT
  maskable : forall who, Maskable (inputs who)

structure Attended (ids : client -> Bytes) (ip : Bytes) (inputs : client -> Bytes)
    (s : Service client) (d : Directory Int Bytes) : Prop where
  table : TableSound s.master
  refines : Refines s.master d
  sound : d.Sound
  members : forall id pipe, d.box id = some pipe ->
    exists who, idNumber (ids who) = id
  data : forall who, (s.talks who).data = s.master.data
  genuine : forall who, Genuine (ids who) ip (inputs who) (s.talks who)
  stands : forall who,
    Stands s.master d (idNumber (ids who)) (s.talks who).session

variable {ids : client -> Bytes} {ip : Bytes} {inputs : client -> Bytes}
  {s s' : Service client} {d : Directory Int Bytes}

theorem Attended.start (ids : client -> Bytes) (ip : Bytes)
    (openFds firstPid : Nat) (hinputs : forall who, Maskable (inputs who)) :
    Attended ids ip inputs (Service.start openFds firstPid inputs)
      emptyDirectory where
  table := tableSound_start openFds firstPid
  refines := refines_start openFds firstPid
  sound := emptyDirectory_sound
  members := by
    intro id pipe hbox
    cases hbox
  data := fun _ => rfl
  genuine := fun who => Genuine.start (ids who) ip (hinputs who)
  stands := fun _ => Stands.unknown rfl rfl rfl

theorem Attended.room [Fintype client] (hclients : Clients ids inputs)
    (h : Attended ids ip inputs s d) {who : client}
    (hbox : d.box (idNumber (ids who)) = none) :
    s.master.clientsCount < MAX_CLIENTS_COUNT := by
  have hrows : forall i : Fin s.master.clientsCount, exists pipe other,
      d.box (s.master.clients i).clientId = some pipe ∧
        idNumber (ids other) = (s.master.clients i).clientId := by
    intro i
    rcases h.table.rows i i.isLt with ⟨pipe, _, hholding, _⟩
    have hrow := h.refines.box_of_row i.isLt hholding
    rcases h.members _ _ hrow with ⟨other, hother⟩
    exact ⟨pipe, other, hrow, hother⟩
  choose pipes others hboxes hothers using hrows
  have hinjective : Function.Injective others := by
    intro i j hij
    apply Fin.ext
    apply h.table.distinct i j i.isLt j.isLt
    rw [← hothers i, ← hothers j, hij]
  have hwho : who ∉ Set.range others := by
    rintro ⟨i, hi⟩
    have hrow := hboxes i
    rw [← hothers i, hi, hbox] at hrow
    cases hrow
  have hless := Fintype.card_lt_of_injective_of_notMem others hinjective hwho
  rw [Fintype.card_fin] at hless
  exact lt_of_lt_of_le hless hclients.room

theorem Attended.own [DecidableEq client] {who : client}
    {e : ConversationEvent} {talk : Conversation}
    (hid : IsClientId (ids who)) (hinput : Maskable (inputs who))
    (h : Attended ids ip inputs s d) (he : e.own = true) (hwrites : WritesText e)
    (hstep : converse capacity (ids who) ip (s.talks who) e = some talk) :
    Attended ids ip inputs
      { s with talks := Function.update s.talks who talk } d := by
  have hkept : Kept e (s.talks who) talk := by
    apply kept_of_converse ?_ hstep
    intro heq
    rw [heq] at he
    cases he
  refine ⟨h.table, h.refines, h.sound, h.members, ?_, ?_, ?_⟩
  · rw [Function.forall_update_iff s.talks (fun _ talk => talk.data = s.master.data)]
    exact ⟨(hkept.data he).trans (h.data who), fun other _ => h.data other⟩
  · rw [Function.forall_update_iff s.talks
      (fun who talk => Genuine (ids who) ip (inputs who) talk)]
    exact ⟨(h.genuine who).step hid hinput hwrites hstep,
      fun other _ => h.genuine other⟩
  · rw [Function.forall_update_iff s.talks
      (fun who talk => Stands s.master d (idNumber (ids who)) talk.session)]
    exact ⟨(h.stands who).congr hkept.row hkept.start,
      fun other _ => h.stands other⟩

theorem Attended.serves [Fintype client] [DecidableEq client] {who : client}
    {request : Bytes} {requests : List Bytes}
    (hclients : Clients ids inputs)
    (h : Attended ids ip inputs s d)
    (hrequests : (s.talks who).requests = request :: requests) :
    Serves s.master d (idNumber (ids who)) (s.talks who) request requests ∧
      forall other, other ≠ who ->
        (s.talks other).session.follow s.master
            (iteration s.master (requestEvent request)) (idNumber (ids other)) =
          (s.talks other).session ∧
        Stands (iteration s.master (requestEvent request))
          (d.step MAX_CLIENTS_COUNT (requestEvent request).message)
          (idNumber (ids other)) (s.talks other).session := by
  rcases (h.genuine who).talk with ⟨sizes, asked, answers, chunks, _, htalk⟩
  have he : (requestEvent request).Succeeds := ⟨rfl, rfl, rfl, rfl⟩
  have hid : (requestEvent request).clientId = idNumber (ids who) := by
    apply (h.genuine who).sender
    rw [hrequests]
    exact List.mem_cons_self
  have hfreed : (s.talks who).session.rowFreed = false := by
    by_contra hne
    have hnone := ((h.genuine who).quits.mp (by simpa using hne)).left
    rw [hrequests] at hnone
    cases hnone
  rcases refines_iteration he h.table h.refines h.sound with ⟨ht', hd'⟩
  constructor
  · exact (h.stands who).serves h.table h.refines h.sound hid (h.room hclients)
      (h.data who) htalk.commands hfreed requests
  · intro other hother
    have hne : idNumber (ids who) ≠ idNumber (ids other) := by
      intro heq
      exact hother (hclients.distinct who other heq).symm
    have hmessage : (requestEvent request).message =
        (idNumber (ids who), requestMail (requestEvent request).text) := by
      rw [Event.message, hid]
    rw [hmessage] at hd' ⊢
    refine (h.stands other).follow h.refines ht' hd'
      (iteration_latest he h.table (by rw [hid]; exact Ne.symm hne))
      (Directory.step_box_of_ne MAX_CLIENTS_COUNT hne) ?_ ?_
    · intro pipe hpipe
      rcases hpipe with hbox | hleft
      · exact (Directory.step_of_ne h.sound MAX_CLIENTS_COUNT hbox hne).right
      · exact (hleft.step MAX_CLIENTS_COUNT _).right
    · intro pipe hleft
      exact (hleft.step MAX_CLIENTS_COUNT _).left

theorem Attended.seen_serve [Fintype client] [DecidableEq client]
    {who : client} {request : Bytes} {requests : List Bytes}
    (hclients : Clients ids inputs) (h : Attended ids ip inputs s d)
    (hrequests : (s.talks who).requests = request :: requests) (capacity : Nat)
    (other : client) :
    converse capacity (ids other) ip (s.talks other)
        ((ServiceEvent.serve who).seen other
          (s.serve ids who request requests).master.data) =
      some ((s.serve ids who request requests).talks other) := by
  rcases h.serves hclients hrequests with ⟨⟨hserve, _⟩, hothers⟩
  by_cases hother : other = who
  · rw [hother]
    simp only [ServiceEvent.seen, if_true, converse, hrequests, Service.serve, hserve]
  · simp only [ServiceEvent.seen, if_neg (Ne.symm hother), if_neg hother, converse,
      Service.serve, Conversation.passed, (hothers other hother).left]

theorem Attended.serve [Fintype client] [DecidableEq client] {who : client}
    {request : Bytes} {requests : List Bytes}
    (hclients : Clients ids inputs)
    (h : Attended ids ip inputs s d)
    (hrequests : (s.talks who).requests = request :: requests) :
    Attended ids ip inputs (s.serve ids who request requests)
      (d.step MAX_CLIENTS_COUNT (requestEvent request).message) := by
  rcases h.serves hclients hrequests with ⟨⟨hserve, hstands⟩, hothers⟩
  rcases refines_iteration (e := requestEvent request) ⟨rfl, rfl, rfl, rfl⟩
    h.table h.refines h.sound with ⟨ht', hd'⟩
  refine ⟨ht', hd', h.sound.step MAX_CLIENTS_COUNT _, ?_, ?_, ?_, ?_⟩
  · intro id pipe hbox
    by_cases hid : (requestEvent request).clientId = id
    · refine ⟨who, ?_⟩
      rw [← hid]
      refine ((h.genuine who).sender request ?_).symm
      rw [hrequests]
      exact List.mem_cons_self
    · rw [Event.message, Directory.step_box_of_ne MAX_CLIENTS_COUNT hid] at hbox
      exact h.members id pipe hbox
  · intro other
    by_cases hother : other = who
    · simp only [Service.serve, if_pos hother, Conversation.answered,
        Conversation.passed]
    · simp only [Service.serve, if_neg hother, Conversation.passed]
  · intro other
    -- The capacity of the pipes has no part in what the master does.
    have hstep := h.seen_serve hclients hrequests 0 other
    exact (h.genuine other).step (hclients.isId other) (hclients.maskable other)
      (ServiceEvent.WritesText.seen (l := ServiceEvent.serve who) trivial other _)
      hstep
  · intro other
    by_cases hother : other = who
    · rw [hother]
      simp only [Service.serve, if_true, hserve]
      exact hstands
    · simp only [Service.serve, if_neg hother, Conversation.passed,
        (hothers other hother).left]
      exact (hothers other hother).right

/-- A step of the service is one step of each client's conversation. -/
theorem Attended.step [Fintype client] [DecidableEq client]
    {l : ServiceEvent client} (hclients : Clients ids inputs)
    (hwrites : l.WritesText) (h : Attended ids ip inputs s d)
    (hstep : serviceStep capacity ids ip s l = some s') :
    (exists d', Attended ids ip inputs s' d') ∧
      forall who, converse capacity (ids who) ip (s.talks who)
        (l.seen who s'.master.data) = some (s'.talks who) := by
  cases l with
  | own who e =>
      simp only [serviceStep] at hstep
      split at hstep
      case isFalse => cases hstep
      case isTrue he =>
        rcases Option.map_eq_some_iff.mp hstep with ⟨talk, htalk, heq⟩
        rw [← heq]
        have hown := h.own (hclients.isId who) (hclients.maskable who) he hwrites
          htalk
        refine ⟨⟨d, hown⟩, ?_⟩
        intro other
        by_cases hother : other = who
        · rw [hother]
          simp only [ServiceEvent.seen, if_true, Function.update_self, htalk]
        · simp only [ServiceEvent.seen, if_neg (Ne.symm hother),
            Function.update_of_ne hother, converse, ← h.data other]
  | serve who =>
      simp only [serviceStep] at hstep
      split at hstep
      case h_1 => cases hstep
      case h_2 request requests hrequests =>
        cases hstep
        exact ⟨⟨_, h.serve hclients hrequests⟩,
          h.seen_serve hclients hrequests capacity⟩

end Step

/-!
## Every run of the service

Each client sees the service as its own conversation with other clients' bytes in
`data`.  What holds of every conversation therefore holds of each client.
-/

section Runs

variable {client : Type} [DecidableEq client]
  {ids : client -> Bytes} {ip : Bytes} {inputs : client -> Bytes}
  {openFds firstPid : Nat} {events : List (ServiceEvent client)}
  {s : Service client}

theorem Attended.run [Fintype client] (hclients : Clients ids inputs)
    (hwrites : forall l, l ∈ events -> l.WritesText)
    (hrun : run (serviceStep capacity ids ip) (Service.start openFds firstPid inputs)
      events = some s) : exists d, Attended ids ip inputs s d := by
  refine run_invariant (fun s => exists d, Attended ids ip inputs s d) ?_
    ⟨_, Attended.start ids ip openFds firstPid hclients.maskable⟩
    (allSteps_of_mem hwrites _) hrun
  intro s l s' hs hwrites hstep
  rcases hs with ⟨d, hattended⟩
  exact (hattended.step hclients hwrites hstep).left

theorem service_run [Fintype client] (hclients : Clients ids inputs)
    (hwrites : forall l, l ∈ events -> l.WritesText)
    (hrun : run (serviceStep capacity ids ip) (Service.start openFds firstPid inputs)
      events = some s) (who : client) :
    exists keys,
      List.Forall₂ (fun l k => exists data, k = l.seen who data) events keys ∧
        run (converse capacity (ids who) ip) (Conversation.start (inputs who)) keys =
          some (s.talks who) := by
  refine run_part (fun s => s.talks who) _
    (fun s => exists d, Attended ids ip inputs s d) ?_
    ⟨_, Attended.start ids ip openFds firstPid hclients.maskable⟩
    (allSteps_of_mem hwrites _) hrun
  intro s l s' hs hwrites hstep
  rcases hs with ⟨d, hattended⟩
  rcases hattended.step hclients hwrites hstep with ⟨hs', htalks⟩
  exact ⟨hs', _, ⟨_, rfl⟩, htalks who⟩

end Runs

def twoIds : Fin 2 -> Bytes
  | 0 => zeroId
  | 1 => List.replicate 9 48 ++ [49]

def twoInputs : Fin 2 -> Bytes
  | 0 => LS ++ [10] ++ QUIT ++ [10]
  | 1 => FINDALL ++ [10] ++ QUIT ++ [10]

def quitAnswers (who : Fin 2) : List (ServiceEvent (Fin 2)) :=
  ServiceEvent.own who ConversationEvent.ask :: ServiceEvent.serve who ::
    [ConversationEvent.read, ConversationEvent.handle Answer.done,
      ConversationEvent.write quitText, ConversationEvent.handle Answer.done,
      ConversationEvent.send 24, ConversationEvent.finish [],
      ConversationEvent.receive, ConversationEvent.receive].map
        (ServiceEvent.own who)

def twoAnswers : List (ServiceEvent (Fin 2)) :=
  [ServiceEvent.own 0 ConversationEvent.ask,
    ServiceEvent.own 1 ConversationEvent.ask, ServiceEvent.serve 1,
    ServiceEvent.serve 0, ServiceEvent.own 1 ConversationEvent.receive,
    ServiceEvent.own 0 ConversationEvent.read,
    ServiceEvent.own 0 (ConversationEvent.handle Answer.done),
    ServiceEvent.own 0 (ConversationEvent.write (text ['a', '\n']))] ++
  quitAnswers 1 ++
  [ServiceEvent.own 0 (ConversationEvent.handle Answer.done),
    ServiceEvent.own 0 (ConversationEvent.send 2),
    ServiceEvent.own 0 (ConversationEvent.finish [7]),
    ServiceEvent.own 0 ConversationEvent.receive,
    ServiceEvent.own 0 ConversationEvent.receive] ++ quitAnswers 0

theorem clients_two : Clients twoIds twoInputs where
  isId := by
    intro who
    have hdigits : forall who, (cstr (twoIds who)).all isDigit = true := by
      decide +kernel
    have hlength : forall who, (cstr (twoIds who)).length = IDSZ := by
      decide +kernel
    exact ⟨List.all_eq_true.mp (hdigits who), hlength who⟩
  distinct := by decide +kernel
  room := by decide
  maskable := by decide +kernel

def ServiceEvent.disturbance {client : Type} : ServiceEvent client -> Nat
  | ServiceEvent.own _ e => Socket.disturbance e
  | ServiceEvent.serve _ => 0

def Quiet {client : Type} [DecidableEq client] (capacity : Nat)
    (ids : client -> Bytes) (ip : Bytes) (s : Service client) : Prop :=
  forall l, l.disturbance = 0 -> serviceStep capacity ids ip s l = none

section Ending

variable {client : Type} {ids : client -> Bytes} {ip : Bytes}
  {inputs : client -> Bytes} {s s' : Service client} {d : Directory Int Bytes}

def Service.potential [Fintype client] (s : Service client) : Nat :=
  ∑ who, (s.talks who).potential

theorem sum_pays [Fintype client] {old new : client -> Nat} {income : Nat}
    (who : client) (hwho : new who + 1 ≤ old who + income)
    (hothers : forall other, other ≠ who -> new other ≤ old other) :
    ∑ other, new other + 1 ≤ ∑ other, old other + income := by
  classical
  rw [Fintype.sum_eq_add_sum_compl who new, Fintype.sum_eq_add_sum_compl who old]
  have hrest : ∑ other ∈ {who}ᶜ, new other ≤ ∑ other ∈ {who}ᶜ, old other := by
    apply Finset.sum_le_sum
    intro other hother
    exact hothers other (by simpa using hother)
  lia

theorem service_potential_step [Fintype client] [DecidableEq client]
    {l : ServiceEvent client} {data : Bytes}
    (hsteps : forall who,
      converse capacity (ids who) ip (s.talks who) (l.seen who data) =
      some (s'.talks who)) :
    s'.potential + 1 ≤ s.potential + l.disturbance := by
  have hothers : forall other, l.seen other data = ConversationEvent.others data ->
      (s'.talks other).potential ≤ (s.talks other).potential := by
    intro other hseen
    have hpaid := potential_step (hsteps other)
    rw [hseen] at hpaid
    exact Nat.le_of_succ_le_succ hpaid
  cases l with
  | own who e =>
      apply sum_pays who
      · have hpaid := potential_step (hsteps who)
        rw [ServiceEvent.seen, if_pos rfl] at hpaid
        exact hpaid
      · intro other hother
        apply hothers
        rw [ServiceEvent.seen, if_neg (Ne.symm hother)]
  | serve who =>
      apply sum_pays who
      · have hpaid := potential_step (hsteps who)
        rw [ServiceEvent.seen, if_pos rfl] at hpaid
        exact hpaid
      · intro other hother
        apply hothers
        rw [ServiceEvent.seen, if_neg (Ne.symm hother)]

theorem service_length [Fintype client] [DecidableEq client]
    {openFds firstPid : Nat} {events : List (ServiceEvent client)}
    (hclients : Clients ids inputs) (hwrites : forall l, l ∈ events -> l.WritesText)
    (hrun : run (serviceStep capacity ids ip) (Service.start openFds firstPid inputs)
      events = some s) :
    events.length ≤
      4000 * ∑ who, (inputs who).length + total ServiceEvent.disturbance events := by
  have hstart : (Service.start openFds firstPid inputs).potential =
      4000 * ∑ who, (inputs who).length := by
    rw [Finset.mul_sum]
    rfl
  rcases run_potential
    (fun n s => n = s.potential ∧ exists d, Attended ids ip inputs s d)
    (fun _ => 1) ServiceEvent.disturbance
    (fun n s l s' hs hwrites hstep => by
      rcases hs with ⟨hn, d, hattended⟩
      rcases hattended.step hclients hwrites hstep with ⟨hs', htalks⟩
      exact ⟨_, ⟨rfl, hs'⟩, hn ▸ service_potential_step htalks⟩)
    ⟨rfl, _, Attended.start ids ip openFds firstPid hclients.maskable⟩
    (allSteps_of_mem hwrites _) hrun with ⟨m, _, hpaid⟩
  rw [total_one, hstart] at hpaid
  lia

theorem Quiet.silent [DecidableEq client] (h : Quiet capacity ids ip s)
    (who : client) :
    Silent capacity (ids who) ip (s.talks who) := by
  intro e he
  by_cases hown : e.own = true
  · have hstep := h (ServiceEvent.own who e) he
    simp only [serviceStep, if_pos hown, Option.map_eq_none_iff] at hstep
    exact hstep
  · cases e with
    | serve =>
        have hstep := h (ServiceEvent.serve who) rfl
        simp only [serviceStep] at hstep
        split at hstep
        · rename_i hrequests
          simp only [converse, hrequests]
        · cases hstep
    | others data => cases he
    | _ => exact absurd rfl hown

theorem Attended.row_of_ended (h : Attended ids ip inputs s d) {who : client}
    (hended : (s.talks who).asker = Asker.ended) :
    d.box (idNumber (ids who)) = none := by
  rcases (h.genuine who).talk with ⟨sizes, asked, answers, chunks, _, htalk⟩
  rcases htalk.between (Or.inr hended) with ⟨_, _, _, hrequests, _⟩
  have hfreed : (s.talks who).session.rowFreed = true := by
    apply (h.genuine who).quits.mpr
    rw [hended]
    exact ⟨hrequests, rfl⟩
  cases h.stands who with
  | unknown hbox hslave hsession => exact hbox
  | registered pipe slave hbox hslave hpipe hrow =>
      rw [hfreed] at hrow
      cases hrow
  | gone pipe slave hbox hslave hpipe hleft hrow => exact hbox

theorem Attended.empty_of_ended (h : Attended ids ip inputs s d)
    (hended : forall who, (s.talks who).asker = Asker.ended) :
    s.master.clientsCount = 0 := by
  by_contra hne
  have hpos : 0 < s.master.clientsCount := Nat.pos_of_ne_zero hne
  rcases h.table.rows 0 hpos with ⟨pipe, _, hholding, _⟩
  have hbox := h.refines.box_of_row hpos hholding
  rcases h.members _ _ hbox with ⟨who, hwho⟩
  rw [← hwho, h.row_of_ended (hended who)] at hbox
  cases hbox

end Ending

end Socket
end UnixPrograms
