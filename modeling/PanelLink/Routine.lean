/-!
Routines on a world that others change too: a routine runs without interruption until it is done
or pauses, and a pause goes on from whatever world it then finds.
-/
namespace PanelLink

inductive Pause where
  /-- A reply is on its way. -/
  | delivery
  /-- The loader has not yet said that it left its session. -/
  | acknowledgement
  deriving DecidableEq

/-- How far a routine on the world `ω` has come. -/
inductive Run (ω : Type) (α : Type) where
  | done (result : α) (world : ω)
  | paused (pause : Pause) (world : ω) (resume : ω → Run ω α)

namespace Run

variable {ω α β : Type}

def bind (f : α → ω → Run ω β) : Run ω α → Run ω β
  | done a w => f a w
  | paused p w k => paused p w fun w => (k w).bind f

/-- The world as the run left it, for now or for good. -/
def world : Run ω α → ω
  | done _ w => w
  | paused _ w _ => w

theorem bind_done (r : Run ω α) : r.bind done = r := by
  induction r with
  | done a w => rfl
  | paused p w k ih => exact congrArg (paused p w) (funext ih)

theorem bind_bind {γ : Type} (r : Run ω α) (f : α → ω → Run ω β) (g : β → ω → Run ω γ) :
    (r.bind f).bind g = r.bind fun a w => (f a w).bind g := by
  induction r with
  | done a w => rfl
  | paused p w k ih => exact congrArg (paused p w) (funext ih)

end Run

def Routine (ω : Type) (α : Type) : Type := ω → Run ω α

namespace Routine

variable {ω α β : Type}

instance : Monad (Routine ω) where
  pure a := fun w => .done a w
  bind r f := fun w => (r w).bind f

instance : LawfulMonad (Routine ω) :=
  LawfulMonad.mk' _ (fun r => funext fun w => (r w).bind_done) (fun _ _ => rfl)
    (fun r f g => funext fun w => (r w).bind_bind f g)

def step (f : ω → α × ω) : Routine ω α :=
  fun w => .done (f w).1 (f w).2

def wait (p : Pause) : Routine ω Unit :=
  fun w => .paused p w (.done ())

end Routine

end PanelLink
