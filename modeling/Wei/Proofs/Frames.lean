import Wei.Proofs.After
import Wei.Proofs.Reachable

/-!
Every evaluation leaves the call stack as it found it. Frames are put on and taken off by calls and
by the texts of modules, and between the two anything can end early: in a fault, on the way to a
loop or to the end of a function, or because the host cannot go on. Whatever happens, the frames
are taken off again, and the module that was running before runs again. Only the line of the frame
on top may be another one, so a session that starts its turn with no frame ends it with none.
-/

namespace Wei

/-! ### Stacks that differ in a line -/

/-- What a frame is about, whatever line it is on. -/
def Frame.origin (f : Frame) : String × String := (f.path, f.function)

/-- The frames are about the same, and those below the top are the same. -/
structure CallStack.SameButLine (s t : CallStack) : Prop where
  origins : t.frames.map Frame.origin = s.frames.map Frame.origin
  below : t.pop = s.pop

namespace CallStack

variable {s t u : CallStack}

@[refl] lemma SameButLine.refl (s : CallStack) : s.SameButLine s := ⟨rfl, rfl⟩

lemma SameButLine.trans (h : s.SameButLine t) (h' : t.SameButLine u) : s.SameButLine u :=
  ⟨h'.origins.trans h.origins, h'.below.trans h.below⟩

lemma SameButLine.depth (h : s.SameButLine t) : t.depth = s.depth := by
  simpa [CallStack.depth] using congrArg List.length h.origins

lemma sameButLine_setLine (s : CallStack) (line : Int) : s.SameButLine (s.setLine line) := by
  rcases s with ⟨_ | ⟨f, rest⟩⟩
  · exact ⟨rfl, rfl⟩
  · exact ⟨rfl, rfl⟩

/-- Once the frame that was put on is taken off, the stack is the very same. -/
lemma SameButLine.pop_of_push {path function : String} (h : (s.push path function).SameButLine t) :
    t.pop = s :=
  h.below

end CallStack

/-! ### States that differ in neither frames nor module -/

/-- The same module is running, in the same frames. -/
structure Machine.SamePlace (m m' : Machine) : Prop where
  stack : m.stack.SameButLine m'.stack
  module : m'.module = m.module

/-- The evaluation ends in the frames and in the module in which it starts, whatever its outcome. -/
abbrev Eval.KeepsPlace {α : Type} (x : Eval α) : Prop := x.Within Machine.SamePlace

namespace Machine

variable {m m' : Machine}

lemma SamePlace.of_eq (hs : m'.stack = m.stack) (hm : m'.module = m.module) : m.SamePlace m' :=
  ⟨hs ▸ .refl _, hm⟩

instance : Std.Refl SamePlace := ⟨fun _ => .of_eq rfl rfl⟩

instance : IsTrans Machine SamePlace :=
  ⟨fun _ _ _ h h' => ⟨h.stack.trans h'.stack, h'.module.trans h.module⟩⟩

end Machine

namespace Eval.KeepsPlace

variable {α : Type} {x : Eval α}

lemma own (hx : x.Own) : x.KeepsPlace := by
  intro m
  cases hx with
  | @onStore _ y _ =>
    rw [after_onStore]
    exact .of_eq rfl rfl
  | builtin b args =>
    rw [after_onWorld]
    exact .of_eq rfl rfl
  | askStore y =>
    rw [after_askStore]
    exact .of_eq rfl rfl
  | atLine line =>
    show m.SamePlace (if line = 0 then m else { m with stack := m.stack.setLine line })
    split
    · exact .of_eq rfl rfl
    · exact ⟨m.stack.sameButLine_setLine line, rfl⟩
  | _ => exact .of_eq rfl rfl

lemma loading (hx : x.Loading) : x.KeepsPlace := by
  intro m
  cases hx <;> exact .of_eq rfl rfl

lemma withFrame (hx : x.KeepsPlace) (path function : String) :
    (Eval.withFrame path function x).KeepsPlace := by
  intro m
  rw [after_withFrame]
  have h := hx { m with stack := m.stack.push path function }
  exact .of_eq h.stack.pop_of_push h.module

lemma withModule (hx : x.KeepsPlace) (r : Ref .module) : (Eval.withModule r x).KeepsPlace := by
  intro m
  rw [after_withModule]
  exact ⟨(hx { m with module := some r }).stack, rfl⟩

lemma recording (hx : x.KeepsPlace) : (Eval.recording x).KeepsPlace := by
  intro m
  obtain ⟨report, h⟩ := after_recording x m
  rw [h]
  exact ⟨(hx m).stack, (hx m).module⟩

lemma outsideLoops (hx : x.KeepsPlace) : (Eval.outsideLoops x).KeepsPlace := by
  intro m
  obtain ⟨report, h⟩ := after_outsideLoops x m
  rw [h]
  exact ⟨(hx m).stack, (hx m).module⟩

lemma takingReturn {x : Eval Value} (hx : x.KeepsPlace) : (Eval.takingReturn x).KeepsPlace :=
  fun m => (after_takingReturn x m).symm ▸ hx m

lemma loopRound (hx : x.KeepsPlace) : (Eval.loopRound x).KeepsPlace :=
  fun m => (after_loopRound x m).symm ▸ hx m

lemma boundingDepth (hx : x.KeepsPlace) : (Eval.boundingDepth x).KeepsPlace :=
  fun m => (after_boundingDepth x m).symm ▸ hx m

lemma atBottom (hx : x.KeepsPlace) : (Eval.atBottom x).KeepsPlace := by
  intro m
  rw [after_atBottom]
  split
  · exact hx.withFrame m.modulePath "<module>" m
  · exact hx m

end Eval.KeepsPlace

/-- Keeping frames and module as a congruence. It looks at one of two evaluations only. -/
def Congruence.keepingPlace : Congruence where
  Rel _ _ x _ := x.KeepsPlace
  own := .own
  loading := .loading
  exit {_ _ e} _ := .throw e
  bind := .bind
  widen := id
  loosen := id
  recording := .recording
  withFrame path function hx := hx.withFrame path function
  withModule r hx := hx.withModule r
  takingReturn := .takingReturn
  outsideLoops := .outsideLoops
  loopRound := .loopRound

/-- Whatever the host has evaluated, the frames and the module are kept. -/
lemma Eval.evaluate_keepsPlace (host : Host) (limits : Limits) (n : Node) (scope : Ref .scope) :
    (Eval.evaluate host limits n scope).KeepsPlace := by
  have hn : (node _ scope n).KeepsPlace :=
    (Congruence.keepingPlace.relates_ofDepth host limits.rounds limits.depth).node scope n
  have hreset : resetReport.KeepsPlace := fun _ => .of_eq rfl rfl
  exact hreset.bind fun _ => hn.outsideLoops.takingReturn.boundingDepth.recording.atBottom

/-! ### Between two turns -/

/-- The frames are the same. To open a module makes it current, so of what hosts do only this can be
said. -/
def Machine.SameFrames (m m' : Machine) : Prop := m.stack.SameButLine m'.stack

/-- Whatever a host does, the frames are kept. -/
lemma Machine.sameFrames_hostLaw : Eval.HostLaw Machine.SameFrames where
  trans h h' := CallStack.SameButLine.trans h h'
  aside _ h := by
    unfold SameFrames
    rw [h]
  newModule path := by
    intro m
    rw [Eval.after_onStore]
    exact .refl _
  evaluate host limits n scope m := (Eval.evaluate_keepsPlace host limits n scope m).stack

namespace Engine

/-- No session has a frame on its stack. -/
def Idle (p : Engine) : Prop := ∀ i, (p.sessions.get i).stack.depth = 0

lemma Idle.newSession {p : Engine} (h : p.Idle) (verbose : Bool) (limits : Limits)
    (cache : Option Nat) : (p.newSession verbose limits cache).Idle := by
  intro i
  unfold Engine.newSession
  rw [Arena.get_push]
  split
  · rfl
  · exact h i

lemma Idle.turn {p : Engine} (h : p.Idle) {α : Type} {x : Eval α}
    (hx : x.Within Machine.SameFrames) (i : Nat) : (p.turn i x).2.Idle := by
  intro j
  rw [turn_snd]
  unfold Engine.absorb
  rw [Arena.get_set]
  split
  · exact (CallStack.SameButLine.depth (hx (p.machine i))).trans (h i)
  · exact h j

lemma Reachable.idle {strict : Bool} {p : Engine} (h : p.Reachable strict) : p.Idle := by
  have law := Machine.sameFrames_hostLaw
  induction h with
  | initial =>
    intro i
    rw [show Engine.initial.sessions.get i = default from Arena.get_of_size_le _ (Nat.zero_le i)]
    rfl
  | newSession verbose limits cache _ ih => exact ih.newSession verbose limits cache
  | openModule i host raw _ ih => exact ih.turn (law.openModule host raw) i
  | evaluate i limits _ _ _ _ ih => exact ih.turn (law.evaluate _ limits _ _) i
  | runFile i limits raw _ _ ih => exact ih.turn (law.runFile _ limits raw) i

end Engine

/-- Whatever the evaluator is asked to do ends in the frames and in the module in which it
starts. -/
structure Evaluator.KeepsPlace (host : Host) (parts : Evaluator) : Prop where
  node (scope : Ref .scope) (n : Node) : (Eval.node parts scope n).KeepsPlace
  stmt (scope : Ref .scope) (s : Stmt) : (parts.stmt scope s).KeepsPlace
  apply (callee : Value) (args : List Value) : (parts.apply callee args).KeepsPlace
  method (receiver : Receiver) (f : Ref .function) (args : List Value) :
    (parts.callMethod receiver f args).KeepsPlace
  construct (cls : Ref .cls) (args : List Value) : (parts.construct cls args).KeepsPlace
  iterate (v : Value) : (parts.iterate v).KeepsPlace
  load (name : String) : (Evaluator.load host parts name).KeepsPlace

/-- **Frames are taken off again, and modules are left again**, whatever the outcome is: by every
node, call, construction, walk and import, in every state and to any depth of nesting. What the host
has evaluated leaves as many frames as it found, and so there are none between two turns. -/
theorem Evaluator.frames_are_balanced (host : Host) :
    (∀ rounds depth, (Evaluator.ofDepth (Evaluator.load host) rounds depth).KeepsPlace host) ∧
      (∀ limits n scope, (Eval.evaluate host limits n scope).KeepsPlace ∧
        ∀ m, ((Eval.evaluate host limits n scope).after m).stack.depth = m.stack.depth) ∧
      ∀ strict p, Engine.Reachable strict p → ∀ i, (p.sessions.get i).stack.depth = 0 := by
  refine ⟨fun rounds depth => ?_, fun limits n scope => ?_, fun strict p hp => hp.idle⟩
  · have h := Congruence.keepingPlace.relates_ofDepth host rounds depth
    exact ⟨h.node, h.stmt, h.apply, h.callMethod, h.construct, h.iterate, h.load host⟩
  · have h := Eval.evaluate_keepsPlace host limits n scope
    exact ⟨h, fun m => (h m).stack.depth⟩

/-- A function that fails has been called by the text of a module. The report knows of both frames,
and the session has none left. -/
theorem Evaluator.frames_after_failing_call :
    let host : Host := ⟨.empty ⟨[]⟩, fun _ _ => .syntaxError "", Text.line?⟩
    let start := Engine.initial.newSession false .standard none
    let first := (start.turn 0 (Eval.openModule host "")).2
    let failing : FunctionLiteral := ⟨some "f", [], [.mk 2 (.eval (.name "missing"))]⟩
    let call : Node := .expr (.call (.function failing) [])
    let second := (first.turn 0 (Eval.evaluate host ⟨5, 1⟩ call ⟨0⟩)).2
    second.Reachable true ∧ (second.sessions.get 0).report.frames.length = 2 ∧
      (second.sessions.get 0).stack.depth = 0 := by
  intro host start first failing call second
  have hfirst : first.Reachable true :=
    .openModule 0 host "" (.newSession false .standard none .initial)
  have hsecond : second.Reachable true :=
    .evaluate 0 ⟨5, 1⟩ hfirst nofun (fun _ => rfl) Nat.zero_lt_one
  have hreport : (second.sessions.get 0).report.frames.length = 2 := by decide +kernel
  exact ⟨hsecond, hreport, (Evaluator.frames_are_balanced host).2.2 true second hsecond 0⟩

end Wei
