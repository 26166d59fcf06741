import PanelLink.Proofs.Reaching
import PanelLink.Proofs.Orderly
import PanelLink.Proofs.Resolution
import PanelLink.Proofs.RoundTrip
import PanelLink.Store.Disturbed

/-!
What an image is chosen by. The suffix of an animation is looked for at the end of a path, while the
store goes by the key that the path leads to: the two agree on paths that end in the name of a file.
-/
namespace PanelLink

namespace Path

variable {p u c : Bytes} {k : List Bytes}

/-! ## The end of a path -/

/-- The path ends in a name, so not in a slash, `.` or `..`. -/
def EndsInName (p : Bytes) : Prop :=
  ∃ c, (p.splitOn slash).getLast? = some c ∧ GoesDown c

/-- Before its last component a path is empty, or it ends in a slash. -/
theorem exists_before_last (hlast : (p.splitOn slash).getLast? = some c) :
    ∃ u, p = u ++ c ∧ (u = [] ∨ u.getLast? = some slash) := by
  obtain ⟨cs, hcs⟩ := List.getLast?_eq_some_iff.mp hlast
  have hp : p = List.intercalate [slash] (cs ++ [c]) := by
    rw [← hcs, List.intercalate_splitOn]
  rw [hp]
  clear hlast hcs hp
  induction cs with
  | nil => exact ⟨[], by simp, .inl rfl⟩
  | cons d cs ih =>
    obtain ⟨u, hu, hslash⟩ := ih
    refine ⟨d ++ slash :: u, ?_, .inr ?_⟩
    · rw [List.cons_append, List.intercalate_cons_of_ne_nil (by simp), hu]
      simp
    · obtain rfl | hslash := hslash
      · simp
      · obtain ⟨v, rfl⟩ := List.getLast?_eq_some_iff.mp hslash
        exact List.getLast?_eq_some_iff.mpr ⟨d ++ slash :: v, by simp⟩

/-- A path that ends in a name leads to an entry of that name. -/
theorem getLast?_place (hlast : (p.splitOn slash).getLast? = some c) (hc : GoesDown c) :
    (place p).getLast? = some c := by
  obtain ⟨cs, hcs⟩ := List.getLast?_eq_some_iff.mp hlast
  rw [place, hcs, walk_concat, advance_of_goesDown hc]
  simp

theorem endsInName_render (h : ∀ c ∈ k, IsComponent c) (hne : k ≠ []) :
    EndsInName (render k) := by
  obtain ⟨c, hc⟩ := Option.ne_none_iff_exists'.mp (List.getLast?_eq_none_iff.not.mpr hne)
  refine ⟨c, ?_, (h c (List.mem_of_getLast? hc)).toGoesDown⟩
  rw [splitOn_render h hne, List.getLast?_cons_of_ne_nil hne]
  exact hc

/-! ## The suffix of an animation -/

/-- The suffix holds no slash, so it stands in the last component if it stands at the end. -/
theorem suffix_append_iff (hu : u = [] ∨ u.getLast? = some slash) :
    animationSuffix <:+ u ++ c ↔ animationSuffix <:+ c := by
  refine ⟨fun ⟨x, hx⟩ => ?_, fun h => h.trans (List.suffix_append u c)⟩
  obtain ⟨z, rfl, hz⟩ | ⟨z, -, rfl⟩ := List.append_eq_append_iff.mp hx
  · cases z with
    | nil => exact ⟨[], hz⟩
    | cons b bs =>
      have hslash : (b :: bs).getLast? = some slash := by
        obtain hu | hu := hu
        · simp at hu
        · simpa [List.getLast?_append, List.getLast?_cons] using hu
      have hmem : slash ∈ animationSuffix := by
        rw [hz]
        exact List.mem_append_left c (List.mem_of_getLast? hslash)
      exact absurd hmem (by decide +kernel)
  · exact List.suffix_append z animationSuffix

/-- A path is an animation's by its last component, unless this is the suffix alone. -/
theorem isAnimation_iff (hlast : (p.splitOn slash).getLast? = some c) (hc : c ≠ animationSuffix) :
    isAnimation p = true ↔ ∃ stem, stem ≠ [] ∧ c = stem ++ animationSuffix := by
  obtain ⟨u, rfl, hu⟩ := exists_before_last hlast
  rw [isAnimation, Bool.and_eq_true, decide_eq_true_iff, List.isSuffixOf_iff_suffix,
    suffix_append_iff hu]
  constructor
  · rintro ⟨-, stem, rfl⟩
    refine ⟨stem, fun hstem => hc ?_, rfl⟩
    rw [hstem, List.nil_append]
  · rintro ⟨stem, hstem, rfl⟩
    have hlength : 0 < stem.length := List.length_pos_iff.mpr hstem
    refine ⟨?_, List.suffix_append stem animationSuffix⟩
    simp only [List.length_append]
    omega

theorem isAnimation_iff_of_place (hk : k = place p) (hbare : k.getLast? ≠ some animationSuffix) :
    isAnimation p = true ↔
      EndsInName p ∧ ∃ stem, stem ≠ [] ∧ k.getLast? = some (stem ++ animationSuffix) := by
  obtain ⟨c, hlast⟩ : ∃ c, (p.splitOn slash).getLast? = some c :=
    Option.ne_none_iff_exists'.mp (List.getLast?_eq_none_iff.not.mpr (List.splitOn_ne_nil slash p))
  by_cases hc : GoesDown c
  · have hname : k.getLast? = some c := hk ▸ getLast?_place hlast hc
    have hends : EndsInName p := ⟨c, hlast, hc⟩
    rw [isAnimation_iff hlast (fun h => hbare (h ▸ hname)), hname]
    simp [hends]
  · -- What does not go down is shorter than the suffix.
    have hshort : c.length < animationSuffix.length := by
      by_contra hlong
      refine hc ⟨?_, ?_, ?_⟩ <;> rintro rfl <;> exact hlong (by decide +kernel)
    have hends : ¬EndsInName p := by
      rintro ⟨c', hlast', hc'⟩
      rw [hlast] at hlast'
      exact hc (Option.some.inj hlast' ▸ hc')
    have hstem : ¬∃ stem, stem ≠ [] ∧ c = stem ++ animationSuffix := by
      rintro ⟨stem, -, rfl⟩
      simp only [List.length_append] at hshort
      omega
    rw [isAnimation_iff hlast (fun h => by simp [h] at hshort)]
    simp [hends, hstem]

end Path

/-! ## Paths to one file -/

variable {ι : Type} [Disturbance ι] {size chunk : Nat} {σ φ δ ε : Type} [FileStore σ φ δ]
  {p q : Bytes} {k : Key}

/-- A store finds the same under both paths, and opens the same. -/
structure SameFile (σ : Type) {φ δ : Type} [FileStore σ φ δ] (p q : Bytes) : Prop where
  stat (s : σ) : FileStore.stat s p = FileStore.stat s q
  openFile (s : σ) (flags : OpenFlags) :
    FileStore.openFile s p flags = FileStore.openFile s q flags

theorem Volume.sameFile (hp : key p = .ok k) (hq : key q = .ok k) : SameFile Volume p q where
  stat v := by
    show v.stat p = v.stat q
    unfold stat
    rw [hp, hq]
  openFile v flags := by
    show v.openFile p flags = v.openFile q flags
    unfold openFile
    rw [hp, hq]

namespace SameFile

variable (h : SameFile σ p q)

include h

theorem disturbed : SameFile (Disturbed ι σ) p q where
  stat d := by
    show d.call .stat _ = d.call .stat _
    simp only [h.stat]
  openFile d flags := by
    show d.call .openFile _ = d.call .openFile _
    simp only [h.openFile]

theorem start : (Device.start p : Routine (Device size σ φ) _) = Device.start q := by
  have hlaunch : (Device.launch p : Device size σ φ → _) = Device.launch q := by
    funext d
    unfold Device.launch
    simp only [h.stat, h.openFile]
  unfold Device.start
  rw [hlaunch]

theorem showStill : (Device.showStill p : Routine (Device size σ φ) _) = Device.showStill q := by
  have hshow : (Device.showFile p : Device size σ φ → _) = Device.showFile q := by
    funext d
    unfold Device.showFile
    simp only [h.openFile]
  unfold Device.showStill
  rw [hshow]

end SameFile

/-! ## Choosing an image -/

namespace Handler

variable {s s' : Serving chunk φ ε} {d w : Device size σ φ} {a b : Bytes}
  {ok : Aside σ → Prop} {x : Except CommandError Reply}

private theorem chooseImage_congr (hp : s.endpoint.pathOf a = .ok p)
    (hq : s.endpoint.pathOf b = .ok q)
    (hfile : SameFile σ p q) (hkind : Path.isAnimation p = Path.isAnimation q) :
    on (chooseImage a) s d = on (chooseImage b) s d := by
  rw [on_chooseImage, on_chooseImage, hp, hq]
  simp only [hkind, hfile.start, hfile.showStill]

/-- However it ends, an animation plays then if the path is one's and nothing failed. -/
theorem playing_of_chooseImage (hc : d.Coherent) (hs : d.Settled)
    (hp : s.endpoint.pathOf a = .ok p)
    (h : (on (chooseImage a) s d).Reaches (Device.Resumes ok) (x, s') w) :
    w.playback.playing = true ↔ Path.isAnimation p = true ∧ ∃ reply, x = .ok reply := by
  rw [on_chooseImage, hp] at h
  by_cases hanim : Path.isAnimation p = true
  · simp only [if_pos hanim, Run.reaches_bind, Run.reaches_done] at h
    obtain ⟨r, v, hr, hx, rfl⟩ := h
    obtain rfl := (Prod.mk.inj hx).1
    obtain ⟨u, -, ⟨n, rfl, hplay⟩ | ⟨⟨e, rfl⟩, hdown⟩⟩ := hr.meets (Device.start_meets hc hs)
    · simp [hplay, Playback.start, hanim, Except.map]
    · simp [hdown.still, Except.map]
  · have hstill : (Device.showStill p d).Meets (Device.Resumes ok) (Device.AtPause none)
        (fun v _ w => Device.Quit v w) d :=
      Device.stop_then hc hs fun _ _ _ hquit => hquit.showFile p
    simp only [if_neg hanim, Run.reaches_bind, Run.reaches_done] at h
    obtain ⟨r, v, hr, -, rfl⟩ := h
    obtain ⟨u, hquit⟩ := hr.meets hstill
    simp [hquit.tornDown.still, hanim]

end Handler

theorem Request.routine_chooseImage_congr {e : Endpoint chunk φ} {transport : Transport ε}
    {f g a b : Bytes} {i j : UInt32} (hf : Packet.decode f = .ok ⟨.chooseImage, i, a⟩)
    (hg : Packet.decode g = .ok ⟨.chooseImage, j, b⟩) (hp : e.pathOf a = .ok p)
    (hq : e.pathOf b = .ok q) (hfile : SameFile σ p q)
    (hkind : Path.isAnimation p = Path.isAnimation q) (d : Device size σ φ) :
    (frame transport f).routine e d = (frame transport g).routine e d := by
  have hsame : Handler.on (Handler.chooseImage a) ⟨e, .empty transport⟩ d =
      Handler.on (Handler.chooseImage b) ⟨e, .empty transport⟩ d :=
    Handler.chooseImage_congr hp hq hfile hkind
  rw [routine_frame, routine_frame, Conduct.on_serve _ _ hf, Conduct.on_serve _ _ hg]
  show ((Handler.on (Handler.chooseImage a) _ d).bind _).bind _ = _
  rw [hsame]
  rfl

namespace Endpoint

variable {e : Endpoint chunk φ} {a b : Bytes}

/-- A path that was resolved is the one path of its key. -/
theorem eq_render_of_relative (hrelative : e.config.paths = .relative) (hp : e.pathOf a = .ok p)
    (hk : Volume.key p = .ok k) : p = Path.render k := by
  unfold pathOf meaning at hp
  cases hraw : Path.extract a Path.maxLength with
  | error x =>
    rw [hraw] at hp
    cases hp
  | ok raw =>
    rw [hraw, hrelative] at hp
    have hnormal := Path.normalize_of_resolve hp
    rw [Volume.key_of_normalize hnormal] at hk
    rw [← Except.ok.inj hk]
    exact Path.eq_render_of_resolve hp

theorem endsInName_of_relative (hrelative : e.config.paths = .relative) (hp : e.pathOf a = .ok p)
    (hk : Volume.key p = .ok k) (hne : k ≠ []) : Path.EndsInName p := by
  have hcomponents : ∀ c ∈ k, Path.IsComponent c := by
    rw [(Volume.key_eq_ok_iff.mp hk).1]
    exact fun c => Path.isComponent_of_mem_place
  rw [eq_render_of_relative hrelative hp hk]
  exact Path.endsInName_render hcomponents hne

/-- Two paths to one file are animations' or not alike, unless the suffix is in its name and only
one of the two ends in the name. -/
theorem isAnimation_eq (hp : e.pathOf a = .ok p) (hq : e.pathOf b = .ok q)
    (hkp : Volume.key p = .ok k) (hkq : Volume.key q = .ok k)
    (hspelled : e.config.paths = .relative ∨
      ∀ stem, k.getLast? = some (stem ++ Path.animationSuffix) →
        stem ≠ [] ∧ (Path.EndsInName p ↔ Path.EndsInName q)) :
    Path.isAnimation p = Path.isAnimation q := by
  obtain hrelative | hends := hspelled
  · rw [eq_render_of_relative hrelative hp hkp, eq_render_of_relative hrelative hq hkq]
  · have hbare : k.getLast? ≠ some Path.animationSuffix := fun h => (hends [] h).1 rfl
    rw [Bool.eq_iff_iff, Path.isAnimation_iff_of_place ((Volume.key_eq_ok_iff.mp hkp).1) hbare,
      Path.isAnimation_iff_of_place ((Volume.key_eq_ok_iff.mp hkq).1) hbare]
    exact and_congr_left fun ⟨stem, _, hname⟩ => (hends stem hname).2

end Endpoint

namespace Scene

inductive Indistinct : Scene size chunk σ φ ε → Scene size chunk σ φ ε → Prop
  | free (d : Device size σ φ) (e : Endpoint chunk φ) : Indistinct ⟨d, .free e⟩ ⟨d, .free e⟩
  | busy (d : Device size σ φ) (r r' : Request ε) (e : Endpoint chunk φ) (pause : Pause)
      (resume : Device size σ φ → Run (Device size σ φ) (Answer ε × Endpoint chunk φ)) :
      Indistinct ⟨d, .busy r e pause resume⟩ ⟨d, .busy r' e pause resume⟩

theorem Indistinct.refl (s : Scene size chunk σ φ ε) : Indistinct s s := by
  obtain ⟨d, e | ⟨r, e, pause, resume⟩⟩ := s
  · exact .free d e
  · exact .busy d r r e pause resume

theorem indistinct_settle (r r' : Request ε) (e : Endpoint chunk φ)
    (run : Run (Device size σ φ) (Answer ε × Endpoint chunk φ)) :
    (settle r e run).1 = (settle r' e run).1 ∧
      Indistinct (settle r e run).2 (settle r' e run).2 := by
  cases run with
  | done x d => exact ⟨rfl, .free d x.2⟩
  | paused p d k => exact ⟨rfl, .busy d r r' e p k⟩

variable {s s' : Scene size chunk σ φ ε}

theorem Indistinct.act (h : Indistinct s s') (a : Action σ ε) :
    (s.act a).1 = (s'.act a).1 ∧ Indistinct (s.act a).2 (s'.act a).2 := by
  cases h with
  | free d e =>
    cases a with
    | aside x => exact ⟨rfl, .free _ e⟩
    | request r => exact indistinct_settle r r e _
    | resume => exact ⟨rfl, .free d e⟩
  | busy d r r' e p k =>
    cases a with
    | aside x => exact ⟨rfl, .busy _ r r' e p k⟩
    | request r'' => exact ⟨rfl, .busy d r r' e p k⟩
    | resume =>
      rcases harrived : d.arrived p with ⟨_ | _, v⟩
      · rw [act_look rfl harrived, act_look rfl harrived]
        exact ⟨rfl, .busy v r r' e p k⟩
      · rw [act_resume rfl harrived, act_resume rfl harrived]
        exact indistinct_settle r r' e (k v)

/-- Nothing that happens later tells such scenes apart. -/
theorem Indistinct.after (h : Indistinct s s') (as : List (Action σ ε)) :
    s.events as = s'.events as ∧ Indistinct (s.after as) (s'.after as) := by
  induction as generalizing s s' with
  | nil => exact ⟨rfl, h⟩
  | cons a as ih =>
    obtain ⟨hevent, hnext⟩ := h.act a
    obtain ⟨hevents, hlast⟩ := ih hnext
    exact ⟨congrArg₂ List.cons hevent hevents, hlast⟩

theorem Indistinct.device_eq (h : Indistinct s s') : s.device = s'.device := by
  cases h <;> rfl

theorem Indistinct.endpoint?_eq (h : Indistinct s s') : s.endpoint? = s'.endpoint? := by
  cases h <;> rfl

/-- An image is chosen by the file and not by how its path is spelled: whatever follows goes the
same way. Of a path that was not resolved this holds unless the suffix is in the name of the file
and only one of the two spellings ends in the name. An animation begins exactly if nothing fails,
the path ends in a name, and the file's own name has the suffix with something before it. Files with
a name that is the suffix alone are left out. -/
theorem chosen_by_file (config : Config) (timing : Timing) (store : Disturbed ι Volume)
    (as : List (Action (Disturbed ι Volume) ε)) :
    let s : Scene size chunk (Disturbed ι Volume) FileHandle ε :=
      (initial config timing store).after as
    ∀ e, s.hand = .free e →
      (∀ (transport : Transport ε) f g i j a b p q k,
        Packet.decode f = .ok ⟨.chooseImage, i, a⟩ → Packet.decode g = .ok ⟨.chooseImage, j, b⟩ →
        e.pathOf a = .ok p → e.pathOf b = .ok q → Volume.key p = .ok k → Volume.key q = .ok k →
        (e.config.paths = .relative ∨
          ∀ stem, k.getLast? = some (stem ++ Path.animationSuffix) →
            stem ≠ [] ∧ (Path.EndsInName p ↔ Path.EndsInName q)) →
        ∀ bs,
          let choices := Action.request (.frame transport f) :: bs
          let others := Action.request (.frame transport g) :: bs
          s.events choices = s.events others ∧
          (s.after choices).device = (s.after others).device ∧
          (s.after choices).endpoint? = (s.after others).endpoint?) ∧
      (∀ (outbox : Outbox ε) a p k x s' w,
        e.pathOf a = .ok p → Volume.key p = .ok k → k.getLast? ≠ some Path.animationSuffix →
        (Handler.on (Handler.chooseImage a) ⟨e, outbox⟩ s.device).Reaches
          (Device.Resumes fun _ => True) (x, s') w →
        (w.playback.playing = true ↔ (∃ reply, x = .ok reply) ∧
          (e.config.paths = .relative ∨ Path.EndsInName p) ∧
          ∃ stem, stem ≠ [] ∧ k.getLast? = some (stem ++ Path.animationSuffix))) := by
  intro s e hfree
  have hfirst : (initial config timing store : Scene size chunk _ _ ε).Orderly := .initial ..
  have hs : s.Orderly := hfirst.after as
  refine ⟨?_, ?_⟩
  · intro transport f g i j a b p q k hf hg hp hq hkp hkq hspelled bs choices others
    have hfile : SameFile (Disturbed ι Volume) p q := (Volume.sameFile hkp hkq).disturbed
    have hkind : Path.isAnimation p = Path.isAnimation q := e.isAnimation_eq hp hq hkp hkq hspelled
    have hroutine : (Request.frame transport f).routine e s.device =
        (Request.frame transport g).routine e s.device :=
      Request.routine_chooseImage_congr hf hg hp hq hfile hkind s.device
    have hact : (s.act (.request (.frame transport f))).1 =
        (s.act (.request (.frame transport g))).1 ∧
        Indistinct (s.act (.request (.frame transport f))).2
          (s.act (.request (.frame transport g))).2 := by
      rw [act_request hfree, act_request hfree, hroutine]
      exact indistinct_settle _ _ e _
    obtain ⟨hevents, hlast⟩ := hact.2.after bs
    exact ⟨congrArg₂ List.cons hact.1 hevents, hlast.device_eq, hlast.endpoint?_eq⟩
  · intro outbox a p k x s' w hp hk hbare hreached
    have hplaying := Handler.playing_of_chooseImage (s := ⟨e, outbox⟩) hs.coherent (hs.free hfree)
      hp hreached
    rw [hplaying, Path.isAnimation_iff_of_place (Volume.key_eq_ok_iff.mp hk).1 hbare]
    constructor
    · rintro ⟨⟨hends, hstem⟩, hok⟩
      exact ⟨hok, .inr hends, hstem⟩
    · rintro ⟨hok, hends, stem, hstem, hname⟩
      have hne : k ≠ [] := by
        rintro rfl
        cases hname
      refine ⟨⟨?_, stem, hstem, hname⟩, hok⟩
      obtain hrelative | hends := hends
      · exact e.endsInName_of_relative hrelative hp hk hne
      · exact hends

/-- A file with the name of an animation, chosen by its name and with a slash behind it. -/
theorem slash_hides_animation :
    let volume := (Volume.fresh 1 16).put [Bytes.ofText "a.araw"] (.file [7, 8, 9, 16])
    let s : Scene 4 8 (Disturbed Mishap Volume) FileHandle Unit :=
      initial {} ⟨1, 1⟩ ⟨{}, volume⟩
    let choose (text : String) :=
      s.act (.request (.frame .instant (Packet.frame ⟨.chooseImage, 0, Bytes.ofText text⟩)))
    Volume.key (Bytes.ofText "a.araw") = .ok [Bytes.ofText "a.araw"] ∧
    Volume.key (Bytes.ofText "a.araw/") = .ok [Bytes.ofText "a.araw"] ∧
    (choose "a.araw").1 = .answered (.served (.ok .success) [.ofStatus .success]) ∧
    (choose "a.araw/").1 = .answered (.served (.ok .success) [.ofStatus .success]) ∧
    (choose "a.araw").2.device.playback.playing = true ∧
    (choose "a.araw/").2.device.playback.playing = false ∧
    (choose "a.araw/").2.device.display.frames = [[7, 8, 9, 16]] := by
  intro volume s choose
  refine ⟨by decide +kernel, by decide +kernel, by decide +kernel, by decide +kernel,
    by decide +kernel, by decide +kernel, by decide +kernel⟩

/-- An animation in a directory, chosen in two ways that both end in its name. -/
theorem chosen_through_dots :
    let volume := ((Volume.fresh 1 16).put [Bytes.ofText "d"] .dir).put
      [Bytes.ofText "d", Bytes.ofText "a.araw"] (.file [7, 8])
    let s : Scene 2 2 (Disturbed Mishap Volume) FileHandle Unit :=
      initial {} ⟨1, 1⟩ ⟨{}, volume⟩
    let choose (text : String) : Action (Disturbed Mishap Volume) Unit :=
      .request (.frame .instant (Packet.frame ⟨.chooseImage, 0, Bytes.ofText text⟩))
    ∃ e, s.hand = .free e ∧
      s.events [choose "d/a.araw", .aside .poll, .aside .tick] =
        s.events [choose "/d//./a.araw", .aside .poll, .aside .tick] ∧
      ∃ x s' w, (Handler.on (Handler.chooseImage (Bytes.ofText "d/a.araw"))
          (⟨e, .empty .instant⟩ : Serving 2 FileHandle Unit) s.device).Reaches
          (Device.Resumes fun _ => True) (x, s') w ∧
        (∃ reply, x = .ok reply) ∧ w.playback.playing = true := by
  intro volume s choose
  let e : Endpoint 2 FileHandle := .initial {}
  let k : Key := [Bytes.ofText "d", Bytes.ofText "a.araw"]
  let direct := Bytes.ofText "d/a.araw"
  let dotted := Bytes.ofText "/d//./a.araw"
  obtain ⟨hsame, hplays⟩ := @chosen_by_file Mishap _ 2 2 Unit {} ⟨1, 1⟩ ⟨{}, volume⟩ [] e rfl
  have hdown : Path.GoesDown (Bytes.ofText "a.araw") :=
    ⟨by decide +kernel, by decide +kernel, by decide +kernel⟩
  have hdirect : Path.EndsInName direct := ⟨_, by decide +kernel, hdown⟩
  have hdotted : Path.EndsInName dotted := ⟨_, by decide +kernel, hdown⟩
  have hkey : Volume.key direct = .ok k := by decide +kernel
  have hbare : k.getLast? ≠ some Path.animationSuffix := by decide +kernel
  refine ⟨e, rfl, ?_, ?_⟩
  · refine (hsame .instant _ _ 0 0 direct dotted direct dotted k (by decide +kernel)
      (by decide +kernel) (by decide +kernel) (by decide +kernel) hkey (by decide +kernel)
      (.inr fun stem hstem => ⟨?_, iff_of_true hdirect hdotted⟩) _).1
    rintro rfl
    exact hbare hstem
  · let run := Handler.on (Handler.chooseImage direct)
      (⟨e, .empty .instant⟩ : Serving 2 FileHandle Unit) s.device
    have hdone : (match run with
        | .done x _ => decide (x.1 = .ok Handler.done)
        | .paused .. => false) = true := by
      decide +kernel
    change ∃ x s' w, run.Reaches _ (x, s') w ∧ _
    cases hrun : run with
    | paused p w resume => simp [hrun] at hdone
    | done x w =>
      have hok : x.1 = .ok Handler.done := by simpa [hrun] using hdone
      have hreached : run.Reaches (Device.Resumes fun _ => True) (x.1, x.2) w := hrun ▸ .done x w
      refine ⟨x.1, x.2, w, .done x w, ⟨_, hok⟩, ?_⟩
      exact (hplays _ direct direct k _ _ _ (by decide +kernel) hkey hbare hreached).mpr
        ⟨⟨_, hok⟩, .inr hdirect, [97], by decide, by decide +kernel⟩

end Scene

end PanelLink
