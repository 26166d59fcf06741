import PanelLink.Proofs.Alike
import PanelLink.Proofs.Clock
import PanelLink.Proofs.Partners
import PanelLink.Proofs.Rejection
import PanelLink.Proofs.RoundTrip
import PanelLink.Proofs.Teardown
import PanelLink.Proofs.Verdict

/-!
A format is a full reset. It ends the animation and the upload, takes the host back to the root and
leaves an empty volume; what else is left of the time before, in the buffers, the playback, the
signals and the counts of the volume, never shows.
-/
namespace PanelLink

open Device Handler

variable {size chunk : Nat} {σ φ δ ε ι : Type}

/-! ## Wiped volumes -/

namespace Volume

/-- The volume is empty, formatted and mounted. -/
structure Wiped (v : Volume) : Prop where
  tree : v.tree = .root
  formatted : v.formatted = true
  mounted : v.mounted = true

variable {u v w : Volume}

/-- Formatting and mounting wipes a volume. -/
theorem wiped_of_format (hformat : u.format = (.ok (), v)) (hmount : v.mount = (.ok (), w)) :
    w.Wiped := by
  unfold format at hformat
  split at hformat
  · cases hformat
  · cases hformat
    cases hmount
    exact ⟨rfl, rfl, rfl⟩

/-- Wiped volumes on the same blocks differ in their counts alone. -/
theorem Wiped.alike (hv : v.Wiped) (hw : w.Wiped) (hsize : w.blockSize = v.blockSize)
    (hcount : w.blockCount = v.blockCount) (hfault : w.readFault = v.readFault) :
    v.Alike (w.generation - v.generation) w where
  tree := hw.tree.trans hv.tree.symm
  formatted := hw.formatted.trans hv.formatted.symm
  mounted := hw.mounted.trans hv.mounted.symm
  generation := by rw [UInt32.add_comm, UInt32.sub_add_cancel]
  blockSize := hsize
  blockCount := hcount
  readFault := hfault

end Volume

namespace Disturbed

variable [Disturbance ι]

theorem wiped_of_format {u v w : Disturbed ι Volume} (hformat : FileStore.format u = (.ok (), v))
    (hmount : FileStore.mount v = (.ok (), w)) : w.store.Wiped := by
  have hpasses := Backed.format u
  have hpasses' := Backed.mount v
  rw [hformat] at hpasses
  rw [hmount] at hpasses'
  exact Volume.wiped_of_format hpasses.ok hpasses'.ok

/-- `fresh` was just formatted and mounted, and it has the blocks and the disturbance of `old`. -/
structure Replaces (fresh old : Disturbed ι Volume) : Prop where
  made : ∃ u v, FileStore.format u = (.ok (), v) ∧ FileStore.mount v = (.ok (), fresh)
  blockSize : fresh.store.blockSize = old.store.blockSize
  blockCount : fresh.store.blockCount = old.store.blockCount
  disturbance : fresh.disturbance = old.disturbance
  readFault : fresh.store.readFault = old.store.readFault

theorem Replaces.alike {fresh old : Disturbed ι Volume} (h : fresh.Replaces old)
    (hold : old.store.Wiped) :
    ((Volume.alike (fresh.store.generation - old.store.generation)).disturbed ι).store old
      fresh := by
  obtain ⟨u, v, hformat, hmount⟩ := h.made
  have hfresh : fresh.store.Wiped := wiped_of_format hformat hmount
  exact ⟨h.disturbance.symm, hold.alike hfresh h.blockSize h.blockCount h.readFault⟩

end Disturbed

/-! ## The command -/

section

variable [FileStore σ φ δ]

/-- Once the animation is stopped, a format leaves the endpoint as at first, apart from the settings
and the clock. It fails, or the store was formatted and mounted. -/
theorem Handler.wipe_cases (s : Serving chunk φ ε) (d : Device size σ φ) : ∃ x t,
    on wipe s d = .done (x, { s with
        endpoint := (Endpoint.initial s.endpoint.config).atTime s.endpoint.clock })
      { d with store := t } ∧
    ((∃ c, x = .error c) ∨
      ∃ u v, FileStore.format u = (.ok (), v) ∧ FileStore.mount v = (.ok (), t)) := by
  have habandon : ∃ u, on abandonUpload s d =
      .done (.ok (), { s with endpoint := { s.endpoint with upload := none } })
        { d with store := u } := by
    rw [on_abandonUpload]
    rcases s with ⟨⟨config, cwd, _ | w, cursor, clock⟩, o⟩
    · exact ⟨d.store, rfl⟩
    · exact ⟨w.abandon d.store, rfl⟩
  obtain ⟨u, habandon⟩ := habandon
  rw [wipe, on_bind, habandon, Run.done_bind, next_ok, on_bind, on_modifyEndpoint, Run.done_bind,
    next_ok, on_bind, on_callStore]
  rcases hformat : FileStore.format u with ⟨c | ⟨⟩, v⟩
  · exact ⟨.error (.storage c), v, rfl, .inl ⟨_, rfl⟩⟩
  rw [mapError_ok, Run.done_bind, next_ok, on_bind, on_callStore]
  rcases hmount : FileStore.mount v with ⟨c | ⟨⟩, t⟩
  · exact ⟨.error (.storage c), t, rfl, .inl ⟨_, rfl⟩⟩
  · exact ⟨.ok done, t, rfl, .inr ⟨u, v, hformat, hmount⟩⟩

/-- The last reply leaves the endpoint as the command left it. If it tells of success, the command
did not fail, and what held of the device then still holds if the pause for the reply keeps it. -/
theorem Conduct.conclude_meets {R : Pause → Device size σ φ → Device size σ φ → Prop}
    {I : Device size σ φ → Prop} {x : Except CommandError Reply} {s : Serving chunk φ ε}
    {v d : Device size σ φ} (hI : ∀ r, x = .ok r → I d)
    (hR : ∀ d w, I d → R .delivery d w → I w) :
    ((conclude x).on s d).Meets R anyhow
      (fun _ y w => y.2.endpoint = s.endpoint ∧ (y.1 = .ok .success → I w)) v := by
  obtain ⟨answer, o, hanswer, hrun⟩ := conclude_cases x s d
  have hdone (hok : answer = .ok .success) : I d := by
    obtain hstatus | ⟨y, hy⟩ := hanswer
    · cases x with
      | ok r => exact hI r rfl
      | error c => exact absurd (Except.ok.inj (hstatus.symm.trans hok)) c.status_ne_success
    · cases hy.symm.trans hok
  obtain hrun | hrun := hrun
  · rw [hrun]
    exact ⟨rfl, hdone⟩
  · rw [hrun]
    exact ⟨trivial, fun w hw => ⟨rfl, fun hok => hR d w (hdone hok) hw⟩⟩

end

/-! ## The device meanwhile -/

/-- Nothing is done from outside but that faults and limits come and go. -/
def Aside.OnlyFaults : Aside (Disturbed ι Volume) → Prop
  | .alter change => ∀ s, ∃ i fault, change s = ⟨i, { s.store with readFault := fault }⟩
  | .poll | .tick | .timer | .setFault _ => True

section

variable [Disturbance ι]

namespace Device

variable {d w : Device size (Disturbed ι Volume) FileHandle}

structure Emptied (d : Device size (Disturbed ι Volume) FileHandle) : Prop where
  tornDown : d.TornDown
  wiped : d.store.store.Wiped

theorem Emptied.aside (h : d.Emptied) {a : Aside (Disturbed ι Volume)} (ha : a.OnlyFaults) :
    (a.apply d).2.Emptied := by
  refine ⟨Scene.tornDown_aside h.tornDown a, ?_⟩
  cases a with
  | poll =>
    show d.pollLoader.store.store.Wiped
    rw [h.tornDown.poll]
    exact h.wiped
  | tick =>
    show d.tick.2.store.store.Wiped
    rw [h.tornDown.tick]
    exact h.wiped
  | timer =>
    show d.pollTimer.store.store.Wiped
    unfold pollTimer
    rw [h.tornDown.tick, ite_self]
    exact h.wiped
  | alter change =>
    obtain ⟨i, fault, hchange⟩ := ha d.store
    show (change d.store).store.Wiped
    rw [hchange]
    exact ⟨h.wiped.tree, h.wiped.formatted, h.wiped.mounted⟩
  | setFault fault => exact h.wiped

omit [Disturbance ι] in
theorem Emptied.look (h : d.Emptied) (p : Pause) : (d.arrived p).2.Emptied := by
  refine ⟨h.tornDown.look p, ?_⟩
  rw [arrived_store]
  exact h.wiped

theorem Emptied.resumes {p : Pause} (h : d.Emptied) (hw : Resumes Aside.OnlyFaults p d w) :
    w.Emptied :=
  hw.induct (fun _ _ ha h => h.aside ha) (fun _ h => h.look p) h

end Device

/-- What a format answered with success leaves: an emptied device, and an endpoint as at first apart
from the settings and the clock. -/
theorem Request.format_meets {frame : Bytes} {p : Packet} (hp : Packet.decode frame = .ok p)
    (hc : p.command = .format) (transport : Transport ε) (e : Endpoint chunk FileHandle)
    {d : Device size (Disturbed ι Volume) FileHandle} (hcoherent : d.Coherent)
    (hsettled : d.Settled) :
    ((Request.frame transport frame).routine e d).Meets (Resumes Aside.OnlyFaults) anyhow
      (fun _ x w => ∀ replies, x.1 = .served (.ok .success) replies →
        x.2 = (Endpoint.initial e.config).atTime e.clock ∧ w.Emptied) d := by
  have hexecute : (execute p : Handler size chunk (Disturbed ι Volume) FileHandle ε Reply) =
      Handler.format := by
    unfold execute
    rw [hc]
  have hstop : (Device.stop d).Meets (Resumes Aside.OnlyFaults) anyhow
      (fun _ _ w => w.TornDown) d :=
    ((stop_meets hcoherent hsettled).imp fun _ _ _ h => h.tornDown).mono fun _ _ _ _ => trivial
  rw [routine_frame, Conduct.on_serve _ _ hp, hexecute, on_format, Run.bind_bind, Run.bind_bind,
    Run.meets_bind]
  refine hstop.imp fun v _ w hdown => ?_
  obtain ⟨x, s, hwipe, hcases⟩ := wipe_cases ⟨e, .empty transport⟩ w
  have hemptied (r : Reply) (hr : x = .ok r) :
      ({ w with store := s } : Device size (Disturbed ι Volume) FileHandle).Emptied := by
    refine ⟨hdown.congr rfl rfl rfl rfl, ?_⟩
    obtain ⟨c, hx⟩ | ⟨u, v, hformat, hmount⟩ := hcases
    · cases hx.symm.trans hr
    · exact Disturbed.wiped_of_format hformat hmount
  rw [hwipe, Run.done_bind, Run.meets_bind]
  refine (Conduct.conclude_meets hemptied fun _ _ h hw => h.resumes hw).imp fun _ y w hy => ?_
  intro replies hreplies
  obtain ⟨hresult, -⟩ := Answer.served.inj hreplies
  exact ⟨hy.1, hy.2 hresult⟩

end

/-! ## The settings -/

section

variable [FileStore σ φ δ] [LawfulFileStore σ φ δ]
  {R : Pause → Device size σ φ → Device size σ φ → Prop}

private theorem Handler.handle_settings (frame : Bytes) (t : Transport ε) (e : Endpoint chunk φ)
    (v d : Device size σ φ) :
    (on (handle frame) ⟨e, .empty t⟩ d).Meets R anyhow
      (fun _ x _ => x.2.endpoint.config = e.config) v := by
  obtain ⟨c, -, hrun⟩ | ⟨p, -, -, hrun⟩ := handle_cases e t frame d
  · rw [hrun]
    rfl
  · exact (hrun R v).imp fun _ _ _ hx => hx.sends.settings

/-- No request changes the settings. -/
theorem Request.routine_settings (r : Request ε) (e : Endpoint chunk φ) (v d : Device size σ φ) :
    (r.routine e d).Meets R anyhow (fun _ x _ => x.2.config = e.config) v := by
  have hkeep {α : Type} (run : Run (Device size σ φ) α) (answer : α → Answer ε) :
      (run.bind fun a w => .done (answer a, e) w).Meets R anyhow
        (fun _ x _ => x.2.config = e.config) v := by
    rw [Run.meets_bind]
    exact Run.meets_of_forall (fun _ _ _ => trivial) (fun _ _ _ => rfl) v run
  cases r with
  | frame transport bytes =>
    rw [routine_frame, Conduct.on_serve_handle rfl, Run.bind_bind, Run.meets_bind]
    refine (Handler.handle_settings bytes transport e v d).imp fun v x w hx => ?_
    rw [Run.meets_bind]
    refine (Conduct.conclude_meets (I := fun _ => True) (fun _ _ => trivial)
      fun _ _ _ _ => trivial).imp fun _ y _ hy => ?_
    show y.2.endpoint.config = e.config
    rw [hy.1, hx]
  | stop => exact hkeep (Device.stop d) _
  | start path => exact hkeep (Device.start path d) _
  | showStill path => exact hkeep (Device.showStill path d) _
  | loadConfig => rfl

/-- Between two commands the settings are those that the endpoint began with. -/
theorem Scene.settings {config : Config} {timing : Timing} {store : σ} {as : List (Action σ ε)}
    {e : Endpoint chunk φ}
    (h : ((initial config timing store : Scene size chunk σ φ ε).after as).hand = .free e) :
    e.config = config := by
  have hsound : ((initial config timing store : Scene size chunk σ φ ε).after as).Sound
      (fun _ => True) (fun e _ => e.config = config) (fun _ _ => anyhow)
      (fun _ _ _ x _ => x.2.config = config) := by
    refine after_induct (fun _ => True) (fun s a _ hs => ?_) (fun _ _ => trivial) (Eq.refl config)
    refine sound_act hs a (fun _ _ => trivial) (fun _ _ _ _ he => he) (fun r e d he => ?_)
      fun _ _ _ _ _ _ hx => hx
    exact (r.routine_settings e d d).imp fun _ _ _ hx => hx.trans he
  exact hsound.ready h

end

/-! ## From the answer on -/

namespace Scene

/-- Between two commands a device whose panel takes every frame is in order, as a new one is. -/
theorem poised_after [FileStore σ φ δ] [Backed σ φ δ] {config : Config} {timing : Timing}
    {store : σ} {as : List (Action σ ε)} {e : Endpoint chunk φ} {d : Device size σ φ}
    (h : (initial config timing store : Scene size chunk σ φ ε).after as = ⟨d, .free e⟩)
    (hpanel : d.display.fault = none) : d.Poised 0 := by
  have horderly : ((initial config timing store : Scene size chunk σ φ ε).after as).Orderly :=
    (Orderly.initial config timing store).after as
  have hsized : ((initial config timing store : Scene size chunk σ φ ε).after as).device.Sized :=
    steady_sized.after (Sized.initial timing store) as
  rw [h] at horderly hsized
  have hsettled : d.Settled := horderly.free rfl
  exact ⟨horderly.coherent, hsettled, hsized, hpanel, fun hn => absurd hn (Nat.lt_irrefl 0)⟩

variable [Disturbance ι]

/-- An emptied device goes on as a new one does. -/
theorem coupled_of_emptied {d : Device size (Disturbed ι Volume) FileHandle}
    {fresh : Disturbed ι Volume} (h : d.Emptied) (hposed : d.Poised 0) (hheld : d.held = false)
    (hfresh : fresh.Replaces d.store) (config : Config) (timing : Timing) :
    Coupled ((Volume.alike (fresh.store.generation - d.store.store.generation)).disturbed ι)
      (⟨d, .free (.initial config)⟩ : Scene size chunk (Disturbed ι Volume) FileHandle ε)
      (initial config timing fresh) := by
  have hnew : Poised 0 (Device.initial timing fresh : Device size _ FileHandle) :=
    .initial timing fresh
  refine .free rfl rfl ⟨rfl, rfl, .none, rfl, rfl⟩ ⟨?_, .refl _ _⟩ (hfresh.alike h.wiped)
  exact .of_still hposed hnew h.tornDown.still rfl hheld rfl

/-- A format is a full reset. Whatever has happened to a device and its endpoint, whether an
animation plays or is loaded, an upload is open or half a frame of raw pixels has come: if a format
is answered with success, then whatever frames come and stops are asked for from then on, however
the loader is polled and the ticks fall, the answers with their replies, the ticks, the frames shown
and the images let go of are those of a new device and a new endpoint with the same settings, on any
volume of the same blocks that was just formatted and mounted. Whatever disturbs the store disturbs
the other one as well, and the panel takes every frame. -/
theorem format_resets (config : Config) (timing timing' : Timing) (store : Disturbed ι Volume)
    (as bs cs : List (Action (Disturbed ι Volume) ε)) (transport : Transport ε) {frame : Bytes}
    {p : Packet} {fresh : Disturbed ι Volume} (hdecode : Packet.decode frame = .ok p)
    (hformat : p.command = .format) (hbs : ∀ b ∈ bs, b.Waits Aside.OnlyFaults)
    (hcs : ∀ c ∈ cs, c.Plain) :
    let s : Scene size chunk (Disturbed ι Volume) FileHandle ε :=
      (initial config timing store).after as
    let format := .request (.frame transport frame)
    let used := s.after (format :: bs)
    let new : Scene size chunk (Disturbed ι Volume) FileHandle ε := initial config timing' fresh
    ∀ e qs x w replies, s.hand = .free e → s.AnswersLast (format :: bs) qs x w →
      x.1 = .served (.ok .success) replies → fresh.Replaces w.store → w.display.fault = none →
      used.Matches new cs := by
  intro s format used new e qs x w replies hfree hanswer hsuccess hfresh hpanel
  -- The format comes to a device that plays nothing, on a wiped volume.
  have horderly : s.Orderly := (Orderly.initial config timing store).after as
  have hmeets := Request.format_meets hdecode hformat transport e horderly.coherent
    (horderly.free hfree)
  obtain ⟨-, hleft⟩ := (hanswer.requested hfree hbs).meets hmeets
  obtain ⟨hendpoint, hemptied⟩ := hleft replies hsuccess
  rw [settings hfree] at hendpoint
  -- As between any two commands, it is in order and nobody holds its store.
  have hused : used = ⟨w, .free x.2⟩ := hanswer.scene
  have hafter : (initial config timing store : Scene size chunk _ FileHandle ε).after
      (as ++ format :: bs) = ⟨w, .free x.2⟩ := by
    rw [after_append]
    exact hused
  have hheld := unheld (congrArg hand hafter)
  rw [hafter] at hheld
  -- Nothing is made of the time, so the endpoint may forget it.
  let z : Scene size chunk (Disturbed ι Volume) FileHandle ε := ⟨w, .free (.initial config)⟩
  have htimeless : z.hand.Timeless used.hand := by
    rw [hused, hendpoint]
    exact .free (.initial config) e.clock
  have hdevice : z.device = used.device := by rw [hused]
  have hcoupled : Coupled _ z new :=
    coupled_of_emptied hemptied (poised_after hafter hpanel) hheld hfresh config timing'
  obtain ⟨hsame, hend⟩ := timeless hdevice htimeless cs
  obtain ⟨hevents, hscreen⟩ := hcoupled.agree Volume.alike_lawful.disturbed hcs
  rw [hdevice, hend] at hscreen
  exact ⟨hsame.symm.trans hevents, hscreen⟩

/-- An animation plays, the host is in a directory and a byte of an upload is pending when a format
comes; it waits for the loader, and then a picture, an animation and an upload go as at first. -/
theorem format_amid_animation_and_upload :
    let frame (command : Command) (id : UInt32) (payload : Bytes) :
        Action (Disturbed Mishap Volume) Unit :=
      .request (.frame .instant (Packet.frame ⟨command, id, payload⟩))
    let path := Bytes.ofText "a.araw"
    let upload := [frame .openFile 0 path, frame .writeFile 1 [1, 2, 3, 4], frame .closeFile 2 []]
    let as := upload ++ [frame .cd 3 [47], frame .setTime 4 [1, 2, 3], frame .openFile 5 [117],
      frame .writeFile 6 [7], frame .chooseImage 7 path, .aside .poll, .aside .tick]
    let format := frame .format 8 []
    let bs := [.aside .tick, .aside .poll, .resume]
    let cs := frame .cat 0 path :: frame .writeFile 1 [8] :: upload ++
      [frame .writeDisplay 2 [9], frame .chooseImage 3 path, .aside .poll, .aside .tick,
        .aside .poll, .aside .tick, frame .writeDisplay 4 [5, 6], .aside .poll, .resume,
        .request .stop]
    let s : Scene 2 2 (Disturbed Mishap Volume) FileHandle Unit :=
      (initial {} ⟨1, 1⟩ ⟨{}, .fresh 1 64⟩).after as
    let used := s.after (format :: bs)
    let new : Scene 2 2 (Disturbed Mishap Volume) FileHandle Unit :=
      initial {} ⟨1, 1⟩ ⟨{}, (Volume.fresh 1 64).format.2.mount.2⟩
    s.device.playback.playing = true ∧
      (∃ e u, s.hand = .free e ∧ e.upload = some u ∧ u.chunk.pending = [7]) ∧
      new.shown cs = [0, 1] ∧ used.Matches new cs := by
  intro frame path upload as format bs cs s used new
  have hplaying : s.device.playback.playing = true := by decide +kernel
  have hpending : s.endpoint?.map (fun e => e.upload.map fun u => u.chunk.pending) =
      some (some [7]) := by
    decide +kernel
  obtain ⟨e, he, hupload⟩ := Option.map_eq_some_iff.mp hpending
  obtain ⟨u, hu, hchunk⟩ := Option.map_eq_some_iff.mp hupload
  have hshown : new.shown cs = [0, 1] := by decide +kernel
  have hdone : used.endpoint?.isSome = true := by decide +kernel
  obtain ⟨e', he'⟩ := Option.isSome_iff_exists.mp hdone
  have hevents : s.events (format :: bs) =
      [.quiet, .ticked .idle, .quiet, .answered (.served (.ok .success) [.ofStatus .success])] := by
    decide +kernel
  have hanswer : s.AnswersLast (format :: bs) [.quiet, .ticked .idle, .quiet]
      (.served (.ok .success) [.ofStatus .success], e') used.device := by
    refine ⟨fun answer h => ?_, hevents, ?_⟩
    · simp at h
    · rw [← hand_of_endpoint? he']
  have hbs : ∀ b ∈ bs, b.Waits Aside.OnlyFaults := by
    intro b hb
    simp only [bs, List.mem_cons, List.not_mem_nil, or_false] at hb
    obtain rfl | rfl | rfl := hb <;> trivial
  have hcs : ∀ c ∈ cs, c.Plain := by
    simp [cs, upload, frame, Action.Plain, Aside.OfPlayer, Request.Ordinary]
  have hnew : (⟨{}, (Volume.fresh 1 64).format.2.mount.2⟩ : Disturbed Mishap Volume).Replaces
      used.device.store := by
    refine ⟨⟨⟨{}, .fresh 1 64⟩, ⟨{}, (Volume.fresh 1 64).format.2⟩, rfl, rfl⟩, ?_, ?_, ?_, ?_⟩ <;>
      decide +kernel
  have hpanel : used.device.display.fault = none := by decide +kernel
  have hdecode : Packet.decode (Packet.frame ⟨.format, 8, []⟩) = .ok ⟨.format, 8, []⟩ := by
    decide +kernel
  have hmatch := @format_resets 2 2 Unit Mishap _ {} ⟨1, 1⟩ ⟨1, 1⟩ ⟨{}, .fresh 1 64⟩ as bs cs
    .instant _ _ _ hdecode rfl hbs hcs e _ _ _ _ (hand_of_endpoint? he) hanswer rfl hnew hpanel
  exact ⟨hplaying, ⟨e, u, hand_of_endpoint? he, hu, hchunk⟩, hshown, hmatch⟩

end Scene

end PanelLink
