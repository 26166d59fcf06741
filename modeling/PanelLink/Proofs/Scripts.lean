import PanelLink.Proofs.Sending

/-!
What a command sends to a host that it does not have to wait for. If no fault is armed it is settled
before the first reply goes out: the transport decides no more than how many replies it takes.
-/
namespace PanelLink

variable {size chunk : Nat} {ι ε α β : Type}

/-! ## Replies in a row -/

namespace Outbox

def postAll (o : Outbox ε) : List Reply → Bool × Outbox ε
  | [] => (true, o)
  | r :: rs =>
    match o.post r with
    | (true, o) => o.postAll rs
    | (false, o) => (false, o)

theorem postAll_append (o : Outbox ε) (rs rs' : List Reply) :
    o.postAll (rs ++ rs') =
      match o.postAll rs with
      | (true, o) => o.postAll rs'
      | (false, o) => (false, o) := by
  induction rs generalizing o with
  | nil => rfl
  | cons r rs ih =>
    simp only [List.cons_append, postAll]
    rcases o.post r with ⟨_ | _, o'⟩
    · rfl
    · exact ih o'

private theorem post_transport (o : Outbox ε) (r : Reply) :
    (o.post r).2.transport = o.transport := by
  unfold post
  split
  · rfl
  · split <;> rfl

theorem postAll_transport (o : Outbox ε) (rs : List Reply) :
    (o.postAll rs).2.transport = o.transport := by
  induction rs generalizing o with
  | nil => rfl
  | cons r rs ih =>
    have hpost := o.post_transport r
    unfold postAll
    rcases hr : o.post r with ⟨_ | _, o'⟩
    · rwa [hr] at hpost
    · rw [hr] at hpost
      exact (ih o').trans hpost

end Outbox

/-! ## Scripts -/

def Disturbed.withReads (d : Disturbed ι Volume) (reads : List Key) : Disturbed ι Volume :=
  { d with store := { d.store with reads := reads } }

def Device.withReads {φ : Type} (d : Device size (Disturbed ι Volume) φ) (reads : List Key) :
    Device size (Disturbed ι Volume) φ :=
  { d with store := d.store.withReads reads }

/-- What is sent does not depend on the outbox. If all of `rs` is taken the run ends with `a` on the
device `w`; if not, `B` holds of its result, and the device differs from `w` in its reads alone. -/
structure Script (B : α → Prop)
    (run : Outbox ε → Run (Device size (Disturbed ι Volume) FileHandle)
      (α × Serving chunk FileHandle ε))
    (e : Endpoint chunk FileHandle) (rs : List Reply) (a : α)
    (w : Device size (Disturbed ι Volume) FileHandle) : Prop where
  whole {o o' : Outbox ε} : o.transport.slow = false → o.postAll rs = (true, o') →
    run o = .done (a, ⟨e, o'⟩) w
  broken {o o' : Outbox ε} : o.transport.slow = false → o.postAll rs = (false, o') →
    ∃ b reads, B b ∧ run o = .done (b, ⟨e, o'⟩) (w.withReads reads)

namespace Script

variable {B : α → Prop} {B' : β → Prop} {e : Endpoint chunk FileHandle} {rs rs' : List Reply}
  {a : α} {b : β} {v w : Device size (Disturbed ι Volume) FileHandle}

theorem silent (a : α) (w : Device size (Disturbed ι Volume) FileHandle) :
    Script B (fun o : Outbox ε => .done (a, ⟨e, o⟩) w) e [] a w := by
  constructor
  · rintro o o' - h
    cases h
    rfl
  · rintro o o' - h
    cases h

/-- What comes after a script that breaks off sends nothing more. -/
protected theorem bind {run : Outbox ε → Run (Device size (Disturbed ι Volume) FileHandle)
      (α × Serving chunk FileHandle ε)}
    {f : α × Serving chunk FileHandle ε → Device size (Disturbed ι Volume) FileHandle →
      Run (Device size (Disturbed ι Volume) FileHandle) (β × Serving chunk FileHandle ε)}
    (h : Script B run e rs a v) (hf : Script B' (fun o => f (a, ⟨e, o⟩) v) e rs' b w)
    (hb : ∀ a reads o, B a → ∃ b reads', B' b ∧
      f (a, ⟨e, o⟩) (v.withReads reads) = .done (b, ⟨e, o⟩) (w.withReads reads')) :
    Script B' (fun o => (run o).bind f) e (rs ++ rs') b w := by
  constructor
  · intro o o' hquick hall
    rw [Outbox.postAll_append] at hall
    rcases hrs : o.postAll rs with ⟨_ | _, o₁⟩
    · rw [hrs] at hall
      cases hall
    · have htransport := o.postAll_transport rs
      rw [hrs] at hall htransport
      have hquick₁ : o₁.transport.slow = false := by rw [htransport, hquick]
      rw [h.whole hquick hrs, Run.done_bind]
      exact hf.whole hquick₁ hall
  · intro o o' hquick hall
    rw [Outbox.postAll_append] at hall
    rcases hrs : o.postAll rs with ⟨_ | _, o₁⟩
    · rw [hrs] at hall
      cases hall
      obtain ⟨a', reads, ha', hrun⟩ := h.broken hquick hrs
      rw [hrun, Run.done_bind]
      exact hb a' reads _ ha'
    · have htransport := o.postAll_transport rs
      rw [hrs] at hall htransport
      have hquick₁ : o₁.transport.slow = false := by rw [htransport, hquick]
      rw [h.whole hquick hrs, Run.done_bind]
      exact hf.broken hquick₁ hall

end Script

namespace Handler

def Refused (x : Except CommandError α) : Prop :=
  x = .error .transport

abbrev Plays (h : Handler size chunk (Disturbed ι Volume) FileHandle ε α)
    (e : Endpoint chunk FileHandle) (d : Device size (Disturbed ι Volume) FileHandle)
    (rs : List Reply) (x : Except CommandError α)
    (w : Device size (Disturbed ι Volume) FileHandle) : Prop :=
  Script Refused (fun o : Outbox ε => on h ⟨e, o⟩ d) e rs x w

variable {e : Endpoint chunk FileHandle} {d v w : Device size (Disturbed ι Volume) FileHandle}
  {rs rs' : List Reply}

namespace Plays

variable {h : Handler size chunk (Disturbed ι Volume) FileHandle ε α}
  {f : α → Handler size chunk (Disturbed ι Volume) FileHandle ε β}

protected theorem bind {a : α} {y : Except CommandError β} {reads : List Key}
    (hh : Plays h e d rs (.ok a) v) (hf : Plays (f a) e v rs' y (v.withReads reads)) :
    Plays (h >>= f) e d (rs ++ rs') y (v.withReads reads) := by
  simp only [Plays, on_bind]
  refine Script.bind hh hf ?_
  rintro x reads' o rfl
  exact ⟨.error .transport, reads', rfl, rfl⟩

theorem fails {c : CommandError} (hh : Plays h e d rs (.error c) v) :
    Plays (h >>= f) e d rs (.error c) v := by
  rw [← List.append_nil rs]
  simp only [Plays, on_bind]
  refine Script.bind hh (.silent _ v) ?_
  rintro x reads o rfl
  exact ⟨.error .transport, reads, rfl, rfl⟩

theorem send (r : Reply) :
    Plays (Handler.send r : Handler size chunk _ FileHandle ε Unit) e d [r] (.ok ()) d := by
  have hrun {o : Outbox ε} (hquick : o.transport.slow = false) :
      on (Handler.send r) ⟨e, o⟩ d =
        .done (if (o.post r).1 then .ok () else .error .transport, ⟨e, (o.post r).2⟩) d := by
    unfold Handler.send
    rw [on_bind, on_always, Conduct.on_post]
    dsimp only
    rw [hquick, Bool.and_false]
    cases (o.post r).1 <;> rfl
  constructor
  · intro o o' hquick hall
    rw [hrun hquick]
    rcases hr : o.post r with ⟨_ | _, o₁⟩
    · simp [Outbox.postAll, hr] at hall
    · simp [Outbox.postAll, hr] at hall
      simp [hall]
  · intro o o' hquick hall
    refine ⟨_, d.store.store.reads, rfl, ?_⟩
    rw [hrun hquick]
    rcases hr : o.post r with ⟨_ | _, o₁⟩
    · simp [Outbox.postAll, hr] at hall
      simp [hall]
      rfl
    · simp [Outbox.postAll, hr] at hall

end Plays

end Handler

namespace Handler

/-- The handler has a script, and it leaves the device as it is. -/
def Scripted (h : Handler size chunk (Disturbed ι Volume) FileHandle ε α)
    (e : Endpoint chunk FileHandle) (d : Device size (Disturbed ι Volume) FileHandle) : Prop :=
  ∃ rs x, Plays h e d rs x d

variable {e : Endpoint chunk FileHandle} {d : Device size (Disturbed ι Volume) FileHandle}

namespace Scripted

variable {h : Handler size chunk (Disturbed ι Volume) FileHandle ε α}

protected theorem bind {f : α → Handler size chunk (Disturbed ι Volume) FileHandle ε β}
    (hh : Scripted h e d) (hf : ∀ a, Scripted (f a) e d) : Scripted (h >>= f) e d := by
  obtain ⟨rs, x, hplays⟩ := hh
  cases x with
  | error c => exact ⟨rs, .error c, hplays.fails⟩
  | ok a =>
    obtain ⟨rs', y, hrest⟩ := hf a
    have hsame : Plays (f a) e d rs' y (d.withReads d.store.store.reads) := hrest
    exact ⟨rs ++ rs', y, hplays.bind hsame⟩

protected theorem pure (a : α) :
    Scripted (Pure.pure a : Handler size chunk _ FileHandle ε α) e d :=
  ⟨[], .ok a, .silent _ d⟩

theorem ofExcept {γ : Type} (cause : γ → CommandError) (r : Except γ α) :
    Scripted (Handler.ofExcept cause r : Handler size chunk _ FileHandle ε α) e d := by
  refine ⟨[], r.mapError cause, ?_⟩
  simp only [Plays, on_ofExcept]
  exact .silent _ d

theorem send (r : Reply) :
    Scripted (Handler.send r : Handler size chunk _ FileHandle ε Unit) e d :=
  ⟨[r], .ok (), .send r⟩

end Scripted

end Handler

/-! ## The store -/

/-- No call meets a failure. -/
def Disturbance.Unarmed [Disturbance ι] (i : ι) : Prop :=
  ∀ c, meet i c = (none, i)

theorem Mishap.unarmed {m : Mishap} (h : m.fault = none) : Disturbance.Unarmed m := by
  intro c
  show m.meet c = (none, m)
  simp only [meet, h]

def Volume.Takes (v : Volume) (g : UInt32) : Prop :=
  v.handleFailure g = (none, v)

namespace Volume

variable {v w : Volume} {g : UInt32}

theorem takes_iff : v.Takes g ↔ v.mounted = true ∧ g = v.generation := by
  unfold Takes handleFailure
  by_cases hm : v.mounted = true
  · by_cases hg : g = v.generation
    · simp [hm, hg]
    · simp [hm, hg]
  · simp [hm]

theorem Takes.reread (h : v.Takes g) (reads : List Key) : Takes { v with reads := reads } g := by
  obtain ⟨hm, hg⟩ := takes_iff.mp h
  exact takes_iff.mpr ⟨hm, hg⟩

theorem Takes.readDir {dir : DirHandle} (h : v.Takes dir.generation) :
    v.readDir dir = (.ok dir.entries.head?, { dir with entries := dir.entries.tail }, v) := by
  unfold Volume.readDir
  rw [show v.handleFailure dir.generation = (none, v) from h]
  obtain ⟨_ | ⟨e, es⟩, generation⟩ := dir
  · rfl
  · rfl

theorem Takes.closeDir {dir : DirHandle} (h : v.Takes dir.generation) :
    v.closeDir dir = (.ok (), v) := by
  unfold Volume.closeDir
  rw [show v.handleFailure dir.generation = (none, v) from h]

theorem Takes.closeFile {f : FileHandle} (h : v.Takes f.generation) :
    v.closeFile f = (.ok (), v) := by
  unfold Volume.closeFile
  rw [show v.handleFailure f.generation = (none, v) from h]

/-- A read through a good handle changes no more than the count of reads. -/
theorem Takes.read {f : FileHandle} (h : v.Takes f.generation) (n : Nat) :
    (v.read f n).2.1.generation = f.generation ∧
      (v.read f n).2.2 = { v with reads := f.key :: v.reads } := by
  unfold Volume.read
  rw [show v.handleFailure f.generation = (none, v) from h]
  dsimp only
  split
  · exact ⟨rfl, rfl⟩
  split
  · exact ⟨rfl, rfl⟩
  split <;> exact ⟨rfl, rfl⟩

end Volume

/-! ## The device -/

variable [Disturbance ι]

namespace Disturbed

variable {d : Disturbed ι Volume}

theorem call_unarmed (h : Disturbance.Unarmed d.disturbance) (c : StoreCall)
    (answer : Volume → Except StorageError α × Volume) :
    d.call c answer = ((answer d.store).1, { d with store := (answer d.store).2 }) := by
  unfold call
  rw [h c]

theorem callOn_unarmed {η : Type} (h : Disturbance.Unarmed d.disturbance) (c : StoreCall) (f : η)
    (answer : ι → Volume → η → Except StorageError α × η × Volume) :
    d.callOn c f answer =
      ((answer d.disturbance d.store f).1, (answer d.disturbance d.store f).2.1,
        { d with store := (answer d.disturbance d.store f).2.2 }) := by
  unfold callOn
  rw [h c]

structure Serves (d : Disturbed ι Volume) (g : UInt32) : Prop where
  unarmed : Disturbance.Unarmed d.disturbance
  takes : d.store.Takes g

theorem Serves.withReads {g : UInt32} (h : d.Serves g) (reads : List Key) :
    (d.withReads reads).Serves g :=
  ⟨h.unarmed, h.takes.reread reads⟩

theorem Serves.readDir {dir : DirHandle} (h : d.Serves dir.generation) :
    FileStore.readDir d dir =
      (.ok dir.entries.head?, { dir with entries := dir.entries.tail }, d) := by
  have hcall : FileStore.readDir d dir = _ :=
    callOn_unarmed h.unarmed .readDir dir fun _ v dir => v.readDir dir
  rwa [h.takes.readDir] at hcall

theorem Serves.closeDir {dir : DirHandle} (h : d.Serves dir.generation) :
    FileStore.closeDir d dir = (.ok (), d) := by
  have hcall : FileStore.closeDir d dir = _ :=
    call_unarmed h.unarmed .closeDir fun v => v.closeDir dir
  rwa [h.takes.closeDir] at hcall

theorem Serves.closeFile {f : FileHandle} (h : d.Serves f.generation) :
    FileStore.closeFile d f = (.ok (), d) := by
  have hcall : FileStore.closeFile d f = _ :=
    call_unarmed h.unarmed .closeFile fun v => v.closeFile f
  rwa [h.takes.closeFile] at hcall

theorem Serves.read {f : FileHandle} (h : d.Serves f.generation) (n : Nat) :
    (FileStore.read d f n).2.1.generation = f.generation ∧
      (FileStore.read d f n).2.2 = d.withReads (f.key :: d.store.reads) := by
  obtain ⟨hf, hv⟩ := h.takes.read (limited (Disturbance.readLimit d.disturbance) n)
  have hcall : FileStore.read d f n = _ :=
    callOn_unarmed h.unarmed .read f fun i v f => v.read f (limited (Disturbance.readLimit i) n)
  rw [hcall]
  exact ⟨hf, congrArg (fun v => { d with store := v }) hv⟩

end Disturbed

/-! ## Listings -/

namespace Handler

variable {e : Endpoint chunk FileHandle} {d : Device size (Disturbed ι Volume) FileHandle}

section

variable {σ φ δ : Type} [FileStore σ φ δ] {s : Serving chunk φ ε} {d : Device size σ φ}

def listed (mode : ListingMode) (entries : Except CommandError Reply)
    (closed : Except StorageError Unit) : Handler size chunk σ φ ε Reply := do
  let reply ← ofExcept id entries
  ofExcept .storage closed
  if mode = .split ∧ !reply.isEmpty then
    send reply
    return reply.clear
  return reply

theorem on_ls :
    Handler.on ls s d =
      match FileStore.openDir d.store (listingTarget s.endpoint) with
      | (.error x, t) => .done (.error (.storage x), s) { d with store := t }
      | (.ok dir, t) =>
        ((appendEntries s.endpoint.config.listing (FileStore.entriesLeft t dir + 1) dir done).on s
          { d with store := t, held := true }).bind fun x w =>
            Handler.on (listed s.endpoint.config.listing x.1.1 (FileStore.closeDir w.store x.1.2).1)
              x.2 { w with store := (FileStore.closeDir w.store x.1.2).2, held := false } := by
  unfold ls
  rw [on_bind, on_endpoint, Run.done_bind, next_ok, on_bind, on_callStore]
  rcases FileStore.openDir d.store (listingTarget s.endpoint) with ⟨x | dir, t⟩
  · rfl
  · simp only [mapError_ok, Run.done_bind, next_ok, on_bind, on_always, Conduct.on_bind,
      Conduct.on_setHeld, Conduct.on_onStore, Conduct.on_pure, Run.bind_bind, listed]

end

/-- What is sent of a file has a script, and it is read through a handle of the generation `g`. -/
def Streams (run : Outbox ε → Run (Device size (Disturbed ι Volume) FileHandle)
      ((Except CommandError Unit × FileHandle) × Serving chunk FileHandle ε))
    (e : Endpoint chunk FileHandle) (d : Device size (Disturbed ι Volume) FileHandle)
    (g : UInt32) : Prop :=
  ∃ rs x f reads, f.generation = g ∧
    Script (fun y => Refused y.1 ∧ y.2.generation = g) run e rs (x, f) (d.withReads reads)

end Handler

end PanelLink
