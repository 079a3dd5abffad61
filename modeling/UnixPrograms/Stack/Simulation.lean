import UnixPrograms.Stack.System

/-!
# The point machine follows the code

Every step of the interleaved programs is a step of the point machine, so an
invariant of the machine is an invariant of the code.
-/

namespace UnixPrograms
namespace Stack

open Foundation
open Ipc

theorem flag_ne_count : SEM_FLAG ≠ SEM_COUNT := by
  decide

@[simp] theorem lockedAfter_flag (semId : Int) (locked : Bool) (semOp : Int)
    (flags : SemFlags) (answer : Answer) :
    lockedAfter semId locked (Op.semop semId SEM_FLAG semOp flags) answer =
      if answer.ret = 0 then decide (semOp < 0) else locked := by
  simp [lockedAfter]

@[simp] theorem lockedAfter_count (semId : Int) (locked : Bool) (semOp : Int)
    (flags : SemFlags) (answer : Answer) :
    lockedAfter semId locked (Op.semop semId SEM_COUNT semOp flags) answer =
      locked := by
  simp [lockedAfter, flag_ne_count.symm]

theorem advance_of_call {removed : Removed} {p : Pid} {timeoutFlag : Int}
    {stack : StackT} {request : Request} {point : Point} (locked : Bool)
    {op : Op} {next : op.Res -> Prog Outcome} {answer : op.Res}
    {k k' : Kernel}
    (hcode : point.code timeoutFlag stack request = Program.call op next)
    (hexec : k.exec removed p op = some (answer, k')) :
    exists point' locked',
      next answer = point'.code timeoutFlag stack request ∧
        lockedAfter stack.semId locked op answer = locked' ∧
        Advance removed p timeoutFlag stack request point locked k
          point' locked' k' := by
  cases point with
  | acquire =>
      cases hcode
      refine ⟨_, _, ?_, ?_, Advance.acquire hexec⟩
      · by_cases hret : answer.ret = 0 <;> simp [hret, Point.code]
      · simp
  | check =>
      cases hcode
      injection hexec with hexec
      refine ⟨_, _, ?_, ?_, Advance.check hexec⟩
      · by_cases herr : answer.errno = Errno.eidrm
        · simp [herr, Point.code]
        · by_cases href : request.refuses stack.size answer.ret = true <;>
            simp [herr, href, Point.code]
      · rfl
  | failRelease =>
      cases hcode
      refine ⟨_, _, rfl, ?_, Advance.failRelease hexec⟩
      simp
  | slot =>
      cases hcode
      injection hexec with hexec
      refine ⟨_, _, ?_, ?_, Advance.slot hexec⟩
      · by_cases herr : answer.errno = Errno.eidrm <;>
          simp [herr, Point.code]
      · rfl
  | access index =>
      cases request with
      | push val =>
          cases hcode
          cases hseg : k.segs stack.memory with
          | none => simp [Kernel.exec, hseg] at hexec
          | some seg =>
              simp only [Kernel.exec, hseg] at hexec
              injection hexec with hexec
              injection hexec with _ hk
              subst hk
              exact ⟨_, _, rfl, rfl, Advance.write hseg⟩
      | pop =>
          cases hcode
          cases hseg : k.segs stack.memory with
          | none => simp [Kernel.exec, hseg] at hexec
          | some seg =>
              simp only [Kernel.exec, hseg] at hexec
              injection hexec with hexec
              injection hexec with hval hk
              subst hval
              subst hk
              exact ⟨_, _, rfl, rfl, Advance.read hseg⟩
  | commit out =>
      cases hcode
      refine ⟨_, _, rfl, ?_, Advance.commit hexec⟩
      simp
  | release out =>
      cases hcode
      refine ⟨_, _, rfl, ?_, Advance.release hexec⟩
      simp
  | done outcome => cases hcode
  | ended reason => cases hcode

theorem dismantle_of_call {removed : Removed} {p : Pid} {stack : StackT}
    {point : DestructPoint} {op : Op} {next : op.Res -> Prog Outcome}
    {answer : op.Res} {k k' : Kernel} (locked : Bool)
    (hcode : point.code stack = Program.call op next)
    (hexec : k.exec removed p op = some (answer, k')) :
    exists point',
      next answer = point'.code stack ∧
        lockedAfter stack.semId locked op answer = locked ∧
        Dismantle removed p stack point k point' k' := by
  cases point with
  | removeSegment =>
      cases hcode
      injection hexec with hexec
      refine ⟨_, ?_, rfl, Dismantle.segment hexec⟩
      by_cases hret : answer.ret = 0 <;> simp [hret, DestructPoint.code]
  | removeSet =>
      cases hcode
      injection hexec with hexec
      refine ⟨_, ?_, rfl, Dismantle.set hexec⟩
      by_cases hret : answer.ret = 0 <;> simp [hret, DestructPoint.code]
  | done => cases hcode
  | aborted => cases hcode

/-!
## One simulation lemma for each kind of label
-/

theorem toState_status {cfg : Config} {m : Machine} {p : Pid} {view : View}
    (h : m.view p = view) :
    (m.toState cfg).status p = view.status (cfg.handle p) := by
  rw [← h]
  rfl

theorem view_of_idle {cfg : Config} {m : Machine} {p : Pid}
    (h : (m.toState cfg).status p = Status.idle) : m.view p = View.idle := by
  cases hview : m.view p with
  | idle => rfl
  | _ =>
      rw [toState_status hview] at h
      cases h

theorem view_of_running {cfg : Config} {m : Machine} {p : Pid}
    {timeoutFlag : Int} {call : Call} {code : Prog Outcome} {locked : Bool}
    (h : (m.toState cfg).status p =
      Status.running timeoutFlag call code locked) :
    (exists request point,
        m.view p = View.working timeoutFlag request point locked ∧
          call = Call.request request ∧
          point.code timeoutFlag (cfg.handle p) request = code) ∨
      exists point, m.view p = View.destroying timeoutFlag point ∧
        call = Call.markDestruct ∧ point.code (cfg.handle p) = code ∧
        locked = false := by
  cases hview : m.view p with
  | working timeoutFlag' request point locked' =>
      rw [toState_status hview] at h
      cases h
      exact Or.inl ⟨request, point, rfl, rfl, rfl⟩
  | destroying timeoutFlag' point =>
      rw [toState_status hview] at h
      cases h
      exact Or.inr ⟨point, rfl, rfl, rfl, rfl⟩
  | _ =>
      rw [toState_status hview] at h
      cases h

theorem step_begin_point {cfg : Config} {m : Machine} {p : Pid}
    {timeoutFlag : Int} {call : Call} {s' : State}
    (h : step cfg (m.toState cfg) (Label.begin p timeoutFlag call) = some s') :
    exists m', s' = m'.toState cfg ∧
      PointStep cfg m (Label.begin p timeoutFlag call) m' := by
  cases Callers.Step.of_step h with
  | begins hidle henter =>
      have hview := view_of_idle hidle
      simp only [Config.callers] at henter
      split at henter
      case isFalse hattached => cases henter
      case isTrue hattached =>
        cases henter
        cases call with
        | request request =>
            have hcode : cfg.callers.code p timeoutFlag
                (Call.request request) =
                (startPoint timeoutFlag).code timeoutFlag (cfg.handle p)
                  request :=
              request_code_eq _ _ _
            refine ⟨_, ?_, PointStep.beginRequest hview hattached⟩
            rw [Machine.toState_setView, hcode]
            rfl
        | markDestruct =>
            have hcode : cfg.callers.code p timeoutFlag Call.markDestruct =
                DestructPoint.removeSegment.code (cfg.handle p) :=
              markDestruct_code_eq timeoutFlag _
            refine ⟨_, ?_, PointStep.beginDestruct hview hattached⟩
            rw [Machine.toState_setView, hcode]
            rfl

theorem toState_die (cfg : Config) (m : Machine) (p : Pid)
    (call : Option Call) :
    cfg.callers.die (m.toState cfg) p call =
      Machine.toState cfg
        { m.setView p (View.dead call) with kernel := m.kernel.exit p } := by
  unfold Callers.die
  rw [← View.status.eq_4 (cfg.handle p) call, ← Machine.toState_setView]
  rfl

theorem point_code_eq_halt {timeoutFlag : Int} {stack : StackT}
    {request : Request} {point : Point} {reason : Exit}
    (h : point.code timeoutFlag stack request = Program.halt reason) :
    point = Point.ended reason := by
  cases point with
  | ended other =>
      cases h
      rfl
  | access index =>
      cases request <;> cases h
  | _ => cases h

theorem destructPoint_code_eq_halt {stack : StackT} {point : DestructPoint}
    {reason : Exit} (h : point.code stack = Program.halt reason) :
    point = DestructPoint.aborted := by
  cases point with
  | aborted => rfl
  | _ => cases h

def View.Halting (call : Option Call) : View -> Prop
  | View.working _ request (Point.ended _) _ =>
      call = some (Call.request request)
  | View.destroying _ DestructPoint.aborted => call = some Call.markDestruct
  | _ => False

inductive AtomStep (cfg : Config) (m : Machine) (p : Pid)
    (removed : Removed) : Machine -> Prop where
  | advance {timeoutFlag : Int} {request : Request} {point point' : Point}
      {locked locked' : Bool} {kernel : Kernel} :
      m.view p = View.working timeoutFlag request point locked ->
      Advance removed p timeoutFlag (cfg.handle p) request point locked
        m.kernel point' locked' kernel ->
      AtomStep cfg m p removed
        { m.setView p (View.working timeoutFlag request point' locked') with
          kernel := kernel }
  | dismantle {timeoutFlag : Int} {point point' : DestructPoint}
      {kernel : Kernel} :
      m.view p = View.destroying timeoutFlag point ->
      Dismantle removed p (cfg.handle p) point m.kernel point' kernel ->
      AtomStep cfg m p removed
        { m.setView p (View.destroying timeoutFlag point') with
          kernel := kernel }
  | halt {call : Option Call} :
      (m.view p).Halting call ->
      AtomStep cfg m p removed
        { m.setView p (View.dead call) with kernel := m.kernel.exit p }

theorem step_atom_cases {cfg : Config} {m : Machine} {p : Pid}
    {removed : Removed} {s' : State}
    (h : step cfg (m.toState cfg) (Label.atom p removed) = some s') :
    exists m', s' = m'.toState cfg ∧ AtomStep cfg m p removed m' := by
  cases Callers.Step.of_step h with
  | halts hrunning =>
      refine ⟨_, toState_die cfg m p _, AtomStep.halt ?_⟩
      rcases view_of_running hrunning with
        ⟨request, point, hview, hcall, hcode⟩ | ⟨point, hview, hcall, hcode, _⟩
      · rw [hview, hcall, point_code_eq_halt hcode]
        rfl
      · rw [hview, hcall, destructPoint_code_eq_halt hcode]
        rfl
  | operates hrunning hexec =>
      rename_i timeoutFlag call op next locked answer kernel
      rcases view_of_running hrunning with
        ⟨request, point, hview, hcall, hcode⟩ |
        ⟨point, hview, hcall, hcode, hlocked⟩
      · rcases advance_of_call locked hcode hexec with
          ⟨point', locked', hnext, hafter, hadvance⟩
        refine ⟨_, ?_, AtomStep.advance hview hadvance⟩
        have hset := Machine.toState_setView cfg m p
          (View.working timeoutFlag request point' locked')
        have hafter' : cfg.callers.lockedAfter locked op answer = locked' :=
          hafter
        simp only [View.status] at hset
        rw [hcall, hnext, hafter', ← hset]
        rfl
      · rcases dismantle_of_call false hcode hexec with
          ⟨point', hnext, hafter, hdismantle⟩
        refine ⟨_, ?_, AtomStep.dismantle hview hdismantle⟩
        have hset := Machine.toState_setView cfg m p
          (View.destroying timeoutFlag point')
        have hafter' : cfg.callers.lockedAfter false op answer = false :=
          hafter
        simp only [View.status] at hset
        rw [hcall, hlocked, hnext, hafter', ← hset]
        rfl

theorem AtomStep.point {cfg : Config} {m m' : Machine} {p : Pid}
    {removed : Removed} (h : AtomStep cfg m p removed m') :
    PointStep cfg m (Label.atom p removed) m' := by
  cases h with
  | advance hview hadvance => exact PointStep.advance hview hadvance
  | dismantle hview hdismantle => exact PointStep.dismantle hview hdismantle
  | halt hhalting =>
      refine PointStep.die (Or.inr ⟨removed, rfl⟩) (Or.inr ?_)
      cases hview : m.view p with
      | working timeoutFlag request point locked =>
          rw [hview] at hhalting
          cases point with
          | ended reason =>
              exact Or.inl ⟨timeoutFlag, request, Point.ended reason, locked,
                rfl, hhalting⟩
          | _ => exact hhalting.elim
      | destroying timeoutFlag point =>
          rw [hview] at hhalting
          cases point with
          | aborted =>
              exact Or.inr ⟨timeoutFlag, DestructPoint.aborted, rfl, hhalting⟩
          | _ => exact hhalting.elim
      | idle =>
          rw [hview] at hhalting
          exact hhalting.elim
      | dead call =>
          rw [hview] at hhalting
          exact hhalting.elim

theorem step_atom_point {cfg : Config} {m : Machine} {p : Pid}
    {removed : Removed} {s' : State}
    (h : step cfg (m.toState cfg) (Label.atom p removed) = some s') :
    exists m', s' = m'.toState cfg ∧
      PointStep cfg m (Label.atom p removed) m' := by
  rcases step_atom_cases h with ⟨m', hs', hatom⟩
  exact ⟨m', hs', hatom.point⟩

theorem point_code_eq_ret {timeoutFlag : Int} {stack : StackT}
    {request : Request} {point : Point} {outcome : Outcome}
    (h : point.code timeoutFlag stack request = Program.ret outcome) :
    point = Point.done outcome := by
  cases point with
  | done other =>
      cases h
      rfl
  | access index =>
      cases request <;> cases h
  | _ => cases h

theorem destructPoint_code_eq_ret {stack : StackT} {point : DestructPoint}
    {outcome : Outcome} (h : point.code stack = Program.ret outcome) :
    point = DestructPoint.done ∧ outcome = { ret := 0, out := none } := by
  cases point with
  | done =>
      cases h
      exact ⟨rfl, rfl⟩
  | _ => cases h

theorem step_finish_point {cfg : Config} {m : Machine} {p : Pid} {s' : State}
    (h : step cfg (m.toState cfg) (Label.finish p) = some s') :
    exists m', s' = m'.toState cfg ∧ PointStep cfg m (Label.finish p) m' := by
  have hidle := Machine.toState_setView cfg m p View.idle
  simp only [View.status] at hidle
  cases Callers.Step.of_step h with
  | finishes hrunning =>
      rw [← hidle]
      rcases view_of_running hrunning with
        ⟨request, point, hview, hcall, hcode⟩ | ⟨point, hview, hcall, hcode, _⟩
      · rw [point_code_eq_ret hcode] at hview
        rw [hcall]
        exact ⟨_, rfl, PointStep.finishRequest hview⟩
      · rcases destructPoint_code_eq_ret hcode with ⟨hpoint, houtcome⟩
        rw [hpoint] at hview
        rw [hcall, houtcome]
        exact ⟨_, rfl, PointStep.finishDestruct hview⟩

theorem step_kill_point {cfg : Config} {m : Machine} {p : Pid} {s' : State}
    (h : step cfg (m.toState cfg) (Label.kill p) = some s') :
    exists m', s' = m'.toState cfg ∧ PointStep cfg m (Label.kill p) m' := by
  cases Callers.Step.of_step h with
  | killed halive =>
      refine ⟨_, toState_die cfg m p _, PointStep.die (Or.inl rfl) ?_⟩
      cases hview : m.view p with
      | idle =>
          rw [toState_status hview]
          exact Or.inl ⟨rfl, rfl⟩
      | working timeoutFlag request point locked =>
          rw [toState_status hview]
          exact Or.inr (Or.inl ⟨_, _, _, _, rfl, rfl⟩)
      | destroying timeoutFlag point =>
          rw [toState_status hview]
          exact Or.inr (Or.inr ⟨_, _, rfl, rfl⟩)
      | dead call =>
          rw [toState_status hview] at halive
          cases halive

/-- Every step of the code is a step of the point machine. -/
theorem step_point {cfg : Config} {m : Machine} {l : Label} {s' : State}
    (h : step cfg (m.toState cfg) l = some s') :
    exists m', s' = m'.toState cfg ∧ PointStep cfg m l m' := by
  cases l with
  | begin p timeoutFlag call => exact step_begin_point h
  | atom p removed => exact step_atom_point h
  | finish p => exact step_finish_point h
  | kill p => exact step_kill_point h

/-!
## The code follows the point machine

The views of the processes determine their remaining code.  What is proved about
the point machine therefore holds of the code, and `machine_invariant` is the
rule by which it is carried over.
-/

theorem call_of_advance {removed : Removed} {p : Pid} {timeoutFlag : Int}
    {stack : StackT} {request : Request} {point point' : Point}
    {locked locked' : Bool} {k k' : Kernel}
    (h : Advance removed p timeoutFlag stack request point locked k point'
      locked' k') :
    exists op next answer,
      point.code timeoutFlag stack request = Program.call op next ∧
        k.exec removed p op = some (answer, k') ∧
        next answer = point'.code timeoutFlag stack request ∧
        lockedAfter stack.semId locked op answer = locked' := by
  cases h with
  | acquire hop =>
      rename_i answer
      refine ⟨Op.semop stack.semId SEM_FLAG (-1) (flagFlags timeoutFlag), _,
        answer, rfl, hop, ?_, by simp⟩
      by_cases hret : answer.ret = 0 <;> simp [hret, Point.code]
  | check hop =>
      rename_i answer
      refine ⟨Op.getval stack.semId SEM_COUNT, _, answer, rfl,
        congrArg some hop, ?_, rfl⟩
      by_cases herr : answer.errno = Errno.eidrm
      · simp [herr, Point.code]
      · by_cases href : request.refuses stack.size answer.ret = true <;>
          simp [herr, href, Point.code]
  | failRelease hop =>
      rename_i answer
      exact ⟨Op.semop stack.semId SEM_FLAG 1 (flagFlags timeoutFlag), _,
        answer, rfl, hop, rfl, by simp⟩
  | slot hop =>
      rename_i answer
      refine ⟨Op.getval stack.semId SEM_COUNT, _, answer, rfl,
        congrArg some hop, ?_, rfl⟩
      by_cases herr : answer.errno = Errno.eidrm <;> simp [herr, Point.code]
  | write hseg =>
      rename_i val index seg
      refine ⟨Op.store stack.memory index val, _, (), rfl, ?_, rfl, rfl⟩
      simp only [Kernel.exec, hseg]
  | read hseg =>
      rename_i index seg
      refine ⟨Op.load stack.memory (index - 1), _, seg.memory (index - 1),
        rfl, ?_, rfl, rfl⟩
      simp only [Kernel.exec, hseg]
  | commit hop =>
      rename_i out answer
      exact ⟨Op.semop stack.semId SEM_COUNT request.delta countFlags, _,
        answer, rfl, hop, rfl, by simp⟩
  | release hop =>
      rename_i out answer
      exact ⟨Op.semop stack.semId SEM_FLAG 1 (flagFlags timeoutFlag), _,
        answer, rfl, hop, rfl, by simp⟩

theorem call_of_dismantle {removed : Removed} {p : Pid} {stack : StackT}
    {point point' : DestructPoint} {k k' : Kernel}
    (h : Dismantle removed p stack point k point' k') :
    exists op next answer,
      point.code stack = Program.call op next ∧
        k.exec removed p op = some (answer, k') ∧
        next answer = point'.code stack ∧
        lockedAfter stack.semId false op answer = false := by
  cases h with
  | segment hop =>
      rename_i answer
      refine ⟨Op.shmRmid stack.shmemId, _, answer, rfl, congrArg some hop, ?_,
        rfl⟩
      by_cases hret : answer.ret = 0 <;> simp [hret, DestructPoint.code]
  | set hop =>
      rename_i answer
      refine ⟨Op.semRmid stack.semId, _, answer, rfl, congrArg some hop, ?_,
        rfl⟩
      by_cases hret : answer.ret = 0 <;> simp [hret, DestructPoint.code]

/-- Every step of the point machine is a step of the code, up to deaths inside
a program text that has not come to its end. -/
theorem step_of_point {cfg : Config} {m m' : Machine} {l : Label}
    (h : PointStep cfg m l m')
    (hlives : forall p removed call, l = Label.atom p removed ->
      m'.view p ≠ View.dead call) :
    step cfg (m.toState cfg) l = some (m'.toState cfg) := by
  cases h with
  | beginRequest hview hattached =>
      rename_i p timeoutFlag request
      have hdoes : Callers.Step cfg.callers (m.toState cfg)
          (Label.begin p timeoutFlag (Call.request request)) _ :=
        Callers.Step.begins (toState_status hview) (if_pos hattached)
      have hcode : cfg.callers.code p timeoutFlag (Call.request request) =
          (startPoint timeoutFlag).code timeoutFlag (cfg.handle p) request :=
        request_code_eq _ _ _
      refine hdoes.step_eq.trans ?_
      rw [Machine.toState_setView, hcode]
      rfl
  | beginDestruct hview hattached =>
      rename_i p timeoutFlag
      have hdoes : Callers.Step cfg.callers (m.toState cfg)
          (Label.begin p timeoutFlag Call.markDestruct) _ :=
        Callers.Step.begins (toState_status hview) (if_pos hattached)
      have hcode : cfg.callers.code p timeoutFlag Call.markDestruct =
          DestructPoint.removeSegment.code (cfg.handle p) :=
        markDestruct_code_eq timeoutFlag _
      refine hdoes.step_eq.trans ?_
      rw [Machine.toState_setView, hcode]
      rfl
  | advance hview hadvance =>
      rename_i p removed timeoutFlag request point point' locked locked' kernel
      rcases call_of_advance hadvance with
        ⟨op, next, answer, hcode, hexec, hnext, hafter⟩
      have hrunning : (m.toState cfg).status p = _ := toState_status hview
      have hset := Machine.toState_setView cfg m p
        (View.working timeoutFlag request point' locked')
      have hafter' : cfg.callers.lockedAfter locked op answer = locked' :=
        hafter
      simp only [View.status, hcode] at hrunning hset
      have hdoes : Callers.Step cfg.callers (m.toState cfg)
          (Label.atom p removed) _ := Callers.Step.operates hrunning hexec
      refine hdoes.step_eq.trans ?_
      rw [hnext, hafter', ← hset]
      rfl
  | dismantle hview hdismantle =>
      rename_i p removed timeoutFlag point point' kernel
      rcases call_of_dismantle hdismantle with
        ⟨op, next, answer, hcode, hexec, hnext, hafter⟩
      have hrunning : (m.toState cfg).status p = _ := toState_status hview
      have hset := Machine.toState_setView cfg m p
        (View.destroying timeoutFlag point')
      have hafter' : cfg.callers.lockedAfter false op answer = false := hafter
      simp only [View.status, hcode] at hrunning hset
      have hdoes : Callers.Step cfg.callers (m.toState cfg)
          (Label.atom p removed) _ := Callers.Step.operates hrunning hexec
      refine hdoes.step_eq.trans ?_
      rw [hnext, hafter', ← hset]
      rfl
  | die hlabel hcall =>
      rename_i p call
      rcases hlabel with hlabel | ⟨removed, hlabel⟩
      · subst hlabel
        rw [← toState_die]
        rcases hcall with ⟨hview, hcall⟩ |
          ⟨timeoutFlag, request, point, locked, hview, hcall⟩ |
          ⟨timeoutFlag, point, hview, hcall⟩ <;>
          simp only [step, Callers.step, toState_status hview, View.status,
            hcall, CallStatus.call]
      · exact absurd (m.setView_view_self p (View.dead call))
          (hlives p removed call hlabel)
  | finishRequest hview =>
      rename_i p timeoutFlag request outcome locked
      have hidle := Machine.toState_setView cfg m p View.idle
      simp only [View.status] at hidle
      have hdoes : Callers.Step cfg.callers (m.toState cfg)
          (Label.finish p) _ := Callers.Step.finishes (toState_status hview)
      refine hdoes.step_eq.trans ?_
      rw [← hidle]
      rfl
  | finishDestruct hview =>
      rename_i p timeoutFlag
      have hidle := Machine.toState_setView cfg m p View.idle
      simp only [View.status] at hidle
      have hdoes : Callers.Step cfg.callers (m.toState cfg)
          (Label.finish p) _ := Callers.Step.finishes (toState_status hview)
      refine hdoes.step_eq.trans ?_
      rw [← hidle]
      rfl

/-- The invariant rule for the code: what guarded point steps keep holds of
the machine behind every state of a guarded run. -/
theorem machine_invariant {cfg : Config} {guard : State -> Label -> Prop}
    {Inv : Machine -> Prop}
    (hkeep : forall m l m', Inv m -> guard (m.toState cfg) l ->
      PointStep cfg m l m' -> Inv m')
    {m : Machine} {labels : List Label} {t : State} (hm : Inv m)
    (hguard : AllSteps (step cfg) guard (m.toState cfg) labels)
    (hrun : run (step cfg) (m.toState cfg) labels = some t) :
    exists m', t = m'.toState cfg ∧ Inv m' := by
  refine run_invariant (fun s => exists m', s = m'.toState cfg ∧ Inv m')
    ?_ ⟨m, rfl, hm⟩ hguard hrun
  intro s l s' hs hl hstep
  rcases hs with ⟨m, rfl, hm⟩
  rcases step_point hstep with ⟨m', hs', hpoint⟩
  exact ⟨m', hs', hkeep m l m' hm hl hpoint⟩

theorem fresh_machine {cfg : Config} {s : State} (h : Fresh cfg s) :
    exists m : Machine, s = m.toState cfg ∧
      (forall p, m.view p = View.idle) ∧ forall p, m.returned p = [] := by
  refine ⟨{ kernel := s.kernel, view := fun _ => View.idle,
            returned := s.returned }, ?_, fun _ => rfl, h.returned⟩
  cases s with
  | mk kernel status returned =>
      have hidle : status = fun _ => Status.idle := funext h.idle
      rw [hidle]
      rfl

end Stack
end UnixPrograms
