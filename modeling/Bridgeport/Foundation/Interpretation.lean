import Bridgeport.Foundation.ProgramLogic

/-!
# Interpreted calls

`program.interpret meaning` puts a program in the place of every call of a program: what has been one
step to its author is several to its host. Interpretation passes through `resume`, and so through all
that programs are built with.
-/

namespace Bridgeport.Foundation.Program

/-! ### Safe calls -/

section

variable {Call : Type} {Answer : Call → Type} {World : Type*} {α β : Type}
  (sem : Semantics Answer World) (safe : World → Call → Prop)

/-- Every call from the world is safe, and the end is as `post` says. -/
def Safely : {α : Type} → Program Answer α → (Except String α → World → Prop) → World → Prop
  | _, .done result, post, world => post result world
  | _, .call request next, post, world => safe world request ∧
      ∀ answer, sem.allows world ⟨request, answer⟩ →
        (next answer).Safely post (sem.after world ⟨request, answer⟩)
  | _, .all _ _ _, _, _ => False

variable {sem safe} {world : World} {program : Program Answer α}

theorem safely_resume_iff {next : Except String α → Program Answer β}
    {post : Except String β → World → Prop} :
    (program.resume next).Safely sem safe post world ↔ program.Safely sem safe
      (fun result world ↦ (next result).Safely sem safe post world) world := by
  induction program generalizing world with
  | done _ | all _ _ _ => exact Iff.rfl
  | call request answer ih =>
    exact and_congr_right fun _ ↦ forall_congr' fun result ↦ imp_congr_right fun _ ↦ ih result

variable {post : Except String α → World → Prop}

theorem Safely.mono {weaker : Except String α → World → Prop}
    (h : program.Safely sem safe post world)
    (himp : ∀ result world, post result world → weaker result world) :
    program.Safely sem safe weaker world := by
  induction program generalizing world with
  | done result => exact himp result world h
  | call request answer ih =>
    exact ⟨h.1, fun result hallowed ↦ ih result (h.2 result hallowed) himp⟩
  | all count branches joined => exact h.elim

theorem safely_pure {value : α} (h : post (.ok value) world) :
    (pure value : Program Answer α).Safely sem safe post world :=
  h

theorem safely_throw (message : String) (h : post (.error message) world) :
    (throw message : Program Answer α).Safely sem safe post world :=
  h

variable {next : α → Program Answer β}

theorem safely_bind_iff {post : Except String β → World → Prop} :
    (program >>= next).Safely sem safe post world ↔ program.Safely sem safe
      (fun result world ↦ match result with
        | .ok value => (next value).Safely sem safe post world
        | .error message => post (.error message) world) world := by
  refine safely_resume_iff.trans (iff_of_eq (congrArg (program.Safely sem safe · world) ?_))
  funext result
  cases result with
  | ok _ | error _ => rfl

theorem safely_bind {post : Except String β → World → Prop}
    (h : program.Safely sem safe (fun result world ↦ match result with
      | .ok value => (next value).Safely sem safe post world
      | .error message => post (.error message) world) world) :
    (program >>= next).Safely sem safe post world :=
  safely_bind_iff.mpr h

theorem safely_perform_bind {request : Call} {next : Answer request → Program Answer β}
    {post : Except String β → World → Prop} (hsafe : safe world request)
    (hvalue : ∀ value, sem.allows world ⟨request, .ok value⟩ →
      (next value).Safely sem safe post (sem.after world ⟨request, .ok value⟩))
    (herror : ∀ message, sem.allows world ⟨request, .error message⟩ →
      post (.error message) (sem.after world ⟨request, .error message⟩)) :
    (perform request >>= next).Safely sem safe post world := by
  refine ⟨hsafe, fun answer hallowed ↦ ?_⟩
  cases answer with
  | ok value => exact hvalue value hallowed
  | error message => exact herror message hallowed

theorem safely_emit_bind {request : Call} {next : Unit → Program Answer β}
    {post : Except String β → World → Prop} (hsafe : safe world request)
    (h : ∀ answer, sem.allows world ⟨request, answer⟩ →
      (next ()).Safely sem safe post (sem.after world ⟨request, answer⟩)) :
    (emit request >>= next).Safely sem safe post world :=
  ⟨hsafe, h⟩

variable {handler : String → Program Answer α}

theorem safely_tryCatch_iff : (program.tryCatch handler).Safely sem safe post world ↔
      program.Safely sem safe (fun result world ↦ match result with
        | .ok value => post (.ok value) world
        | .error message => (handler message).Safely sem safe post world) world := by
  refine safely_resume_iff.trans (iff_of_eq (congrArg (program.Safely sem safe · world) ?_))
  funext result
  cases result with
  | ok _ | error _ => rfl

theorem safely_tryCatch (h : program.Safely sem safe (fun result world ↦ match result with
      | .ok value => post (.ok value) world
      | .error message => (handler message).Safely sem safe post world) world) :
    (program.tryCatch handler).Safely sem safe post world :=
  safely_tryCatch_iff.mpr h

theorem Safely.ite {condition : Prop} [Decidable condition] {first second : Program Answer α}
    (hfirst : condition → first.Safely sem safe post world)
    (hsecond : ¬ condition → second.Safely sem safe post world) :
    (if condition then first else second).Safely sem safe post world := by
  split_ifs with h
  · exact hfirst h
  · exact hsecond h

theorem Safely.sound (h : program.Safely sem safe post world)
    {log before after : List (Event Answer)} {event : Event Answer}
    {outcome : Option (Except String α)} (htraces : Traces program log outcome)
    (hconsistent : sem.Consistent world log) (hlog : log = before ++ event :: after) :
    safe (sem.final world before) event.call := by
  induction htraces generalizing world before with
  | start _ | done _ => exact absurd hlog.symm (by simp)
  | call answer htraces ih =>
    cases before with
    | nil =>
      obtain ⟨rfl, -⟩ := List.cons.inj hlog
      exact h.1
    | cons first before =>
      obtain ⟨rfl, hrest⟩ := List.cons.inj hlog
      exact ih (h.2 answer hconsistent.1) hconsistent.2 hrest
  | running | joined | rejected => exact h.elim

end

variable {Call Host : Type} {Answer : Call → Type} {HostAnswer : Host → Type} {World : Type*}
  {α β : Type}

/-! ### Interpretation -/

def interpret (meaning : ∀ request, Program HostAnswer (Answer request)) :
    {α : Type} → Program Answer α → Program HostAnswer α
  | _, .done result => .done result
  | _, .call request next => (meaning request).resume fun result ↦ (next result).interpret meaning
  | _, .all count branches next => .all count (fun index ↦ (branches index).interpret meaning)
      fun results ↦ (next results).interpret meaning

section

variable {meaning : ∀ request, Program HostAnswer (Answer request)}

theorem resume_assoc {γ : Type} (program : Program Answer α)
    (next : Except String α → Program Answer β)
    (last : Except String β → Program Answer γ) :
    (program.resume next).resume last = program.resume fun result ↦ (next result).resume last := by
  induction program with
  | done result => rfl
  | call request answer ih =>
    exact congrArg (Program.call request) (funext fun result ↦ ih result next)
  | all count branches joined _ ih =>
    exact congrArg (Program.all count branches) (funext fun results ↦ ih results next)

section

variable (program : Program Answer α)
include program

theorem resume_pure : program.resume .done = program := by
  induction program with
  | done result => rfl
  | call request next ih => exact congrArg (Program.call request) (funext ih)
  | all count branches next _ ih => exact congrArg (Program.all count branches) (funext ih)

theorem interpret_resume (next : Except String α → Program Answer β) :
    (program.resume next).interpret meaning =
      (program.interpret meaning).resume fun result ↦ (next result).interpret meaning := by
  induction program with
  | done result => rfl
  | call request answer ih =>
    have hrest := congrArg (meaning request).resume (funext fun result ↦ ih result next)
    exact hrest.trans (resume_assoc _ _ _).symm
  | all count branches joined _ ih =>
    exact congrArg (Program.all count _) (funext fun results ↦ ih results next)

theorem interpret_bind (next : α → Program Answer β) :
    (program >>= next).interpret meaning =
      program.interpret meaning >>= fun value ↦ (next value).interpret meaning := by
  rw [bind_eq, bind_eq, bind, bind, interpret_resume]
  refine congrArg (program.interpret meaning).resume (funext fun result ↦ ?_)
  cases result with
  | ok _ | error _ => rfl

theorem interpret_tryCatch (handler : String → Program Answer α) :
    (program.tryCatch handler).interpret meaning =
      (program.interpret meaning).tryCatch fun message ↦ (handler message).interpret meaning := by
  rw [tryCatch, tryCatch, interpret_resume]
  refine congrArg (program.interpret meaning).resume (funext fun result ↦ ?_)
  cases result with
  | ok _ | error _ => rfl

end

theorem interpret_perform (request : Call) :
    (perform request : Program Answer (Answer request)).interpret meaning = meaning request :=
  resume_pure (meaning request)

end

variable {program : Program Answer α}

section

variable {sem : Semantics Answer World} {safe : World → Call → Prop} {world : World}

theorem safely_interpret_perform_bind_iff {HostCall : Type} {HostReply : HostCall → Type}
    {host : Semantics HostReply World} {safeHost : World → HostCall → Prop}
    {meaning : ∀ request, Program HostReply (Answer request)} {request : Call}
    {next : Answer request → Program Answer β} {post : Except String β → World → Prop} :
    ((perform request >>= next).interpret meaning).Safely host safeHost post world ↔
      (meaning request).Safely host safeHost (fun result world ↦ match result with
        | .ok value => ((next value).interpret meaning).Safely host safeHost post world
        | .error message => post (.error message) world) world := by
  rw [interpret_bind, interpret_perform, safely_bind_iff]
  refine iff_of_eq (congrArg ((meaning request).Safely host safeHost · world) (funext fun result ↦ ?_))
  cases result with
  | ok _ | error _ => rfl

theorem Safely.weaken {post : Except String α → World → Prop} {weaker : World → Call → Prop}
    (h : program.Safely sem safe post world)
    (himp : ∀ world request, safe world request → weaker world request) :
    program.Safely sem weaker post world := by
  induction program generalizing world with
  | done result => exact h
  | call request next ih =>
    exact ⟨himp world request h.1, fun answer hallowed ↦ ih answer (h.2 answer hallowed)⟩
  | all count branches next => exact h.elim

/-- The calls of all runs of a program are safe if and only if the program is `Safely` so. Assumes:
it has no branches, and every call can be answered. -/
theorem safely_iff (hdirect : program.Safely sem (fun _ _ ↦ True) (fun _ _ ↦ True) world)
    (hlive : ∀ world request, ∃ answer, sem.allows world ⟨request, answer⟩) :
    program.Safely sem safe (fun _ _ ↦ True) world ↔
      ∀ log outcome, Traces program log outcome → sem.Consistent world log →
        ∀ before event after, log = before ++ event :: after →
          safe (sem.final world before) event.call := by
  refine ⟨fun h log outcome htraces hconsistent before event after hlog ↦
    h.sound htraces hconsistent hlog, fun h ↦ ?_⟩
  induction program generalizing world with
  | done result => exact trivial
  | call request next ih =>
    refine ⟨?_, fun answer hallowed ↦ ih answer (hdirect.2 answer hallowed) ?_⟩
    · obtain ⟨answer, hallowed⟩ := hlive world request
      exact h [⟨request, answer⟩] none (.call answer (.start _)) ⟨hallowed, trivial⟩ [] _ [] rfl
    · intro log outcome htraces hconsistent before event after hlog
      exact h (⟨request, answer⟩ :: log) outcome (.call answer htraces) ⟨hallowed, hconsistent⟩
        (⟨request, answer⟩ :: before) event after (congrArg _ hlog)
  | all count branches next => exact hdirect

end

end Bridgeport.Foundation.Program
