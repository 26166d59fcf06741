import PanelLink.Proofs.Listings
import PanelLink.Proofs.Streaming
import PanelLink.Proofs.Scripts

/-!
Sending a file of a store that cuts reads short and fails when it likes: the pieces come to as much
of the file as could be read, and the last reply tells whether that is all.
-/
namespace PanelLink

open Device

variable {size chunk : Nat} {ι σ φ δ τ ε : Type}

/-! ## The host -/

/-- A request with so many deliveries to wait for is answered when it was looked after as often, and
the answer and the scene that it leaves are as the request says. -/
theorem Scene.answers_last_within [FileStore σ φ δ] {ok : Aside σ → Prop}
    {s : Scene size chunk σ φ ε} {Q : Answer ε × Endpoint chunk φ → Device size σ φ → Prop}
    {r : Request ε} {e : Endpoint chunk φ} {n : Nat} (hhand : s.hand = .free e)
    (hrun : (r.routine e s.device).Within (Resumes ok) Q n) {bs : List (Action σ ε)}
    (hbs : ∀ b ∈ bs, b.Waits ok) (hlooks : n ≤ looks bs) :
    ∃ m qs x w, s.AnswersLast ((.request r :: bs).take (m + 1)) qs x w ∧ Q x w := by
  obtain ⟨y, v, -, hanswered⟩ := request_within hhand hrun hbs hlooks
  obtain ⟨m, qs, x, w, hlast⟩ := answers_first hanswered
  have hfirst := hlast
  rw [List.take_succ_cons] at hfirst
  have hreached := hfirst.requested hhand fun b hb => hbs b (List.mem_of_mem_take hb)
  exact ⟨m, qs, x, w, hlast, hrun.reaches hreached⟩

/-- The file is sent exactly, as far as it could be read: the replies carry its pieces, the files
stay as they were, and over a quick transport so does the rest of the device. -/
structure Device.Sends [FileStore σ φ δ] (S : FileStore.Supply σ τ) (d : Device size σ φ)
    (transport : Transport ε) (path contents sent : Bytes) (result : Transferred) (rs : List Reply)
    (w : Device size σ φ) : Prop where
  transfers : ∃ v, d.Transfers (Resumes S.LeavesFiles) transport path sent result v ∧
    transport.Delivers (Resumes S.LeavesFiles) v w
  pieces : Pieces sent rs
  part : sent <+: contents
  all : result.readOut = true → sent = contents
  files : S.tree w.store = S.tree d.store
  quick : transport.slow = false → w = { d with store := w.store }

namespace Scene

/-- Cat streams a file exactly, on any store that gives its files out in order, however long the
file, however short the reads and whichever calls fail. Over a transport that takes every reply the
command comes to an end: the file is sent in pieces, each behind its length, and then an empty reply
tells what came of it. The pieces are a first part of the file, and all of it if it was read to its
end; neither what the store holds nor the endpoint has changed. A volume is such a store for the
files that end before the last position (`Disturbed.supply`), and for no others
(`Volume.read_past_last`). -/
theorem cat_streams_file [FileStore σ φ δ] (S : FileStore.Supply σ τ) (config : Config)
    (timing : Timing) (store : σ) (as : List (Action σ ε)) (e : Endpoint chunk φ)
    (transport : Transport ε) (bytes path contents : Bytes) (p : Packet) (bs : List (Action σ ε))
    (hfree : ((initial config timing store : Scene size chunk σ φ ε).after as).hand = .free e)
    (hdecode : Packet.decode bytes = .ok p) (hc : p.command = .cat)
    (hpath : e.pathOf p.payload = .ok path)
    (hflows : S.Flows
      ((initial config timing store : Scene size chunk σ φ ε).after as).device.store)
    (hcontents : S.Holds
      (S.tree ((initial config timing store : Scene size chunk σ φ ε).after as).device.store)
      path contents)
    (htakes : ∀ n, transport.refuse n = none) (hbs : ∀ b ∈ bs, b.Waits S.LeavesFiles)
    (hlooks : transport.waits (contents.length + 1) ≤ looks bs) :
    let s : Scene size chunk σ φ ε := (initial config timing store).after as
    ∃ n qs sent result rs w,
      s.AnswersLast ((.request (.frame transport bytes) :: bs).take (n + 1)) qs
        (.served (.ok result.status) (rs ++ [.ofStatus result.status]), e) w ∧
      s.device.Sends S transport path contents sent result rs w := by
  intro s
  have hserves : S.Serves (S.tree s.device.store) s.device.store := ⟨rfl, hflows⟩
  have hrun :=
    Request.cat_transfers
      (FileStore.Supply.lasts fun _ h => h) hdecode hc hpath hcontents htakes hserves
  obtain ⟨n, qs, x, w, hlast, sent, result, rs, v, htransfers, hdelivers, hpieces, rfl⟩ :=
    answers_last_within hfree hrun hbs hlooks
  obtain ⟨hv, hpart, hall⟩ :=
    htransfers.exact (FileStore.Supply.lasts fun _ h => h) hserves hcontents
  refine ⟨n, qs, sent, result, rs, w, hlast, ?_⟩
  constructor
  case transfers => exact ⟨v, htransfers, hdelivers⟩
  case pieces => exact hpieces
  case part => exact hpart
  case all => exact hall
  case files => exact (hdelivers.serves (FileStore.Supply.lasts fun _ h => h) hv).tree
  case quick =>
    intro hquick
    have hstays := htransfers.quick hquick (unheld hfree)
    unfold Transport.Delivers at hdelivers
    rw [if_neg (by simp [hquick])] at hdelivers
    rwa [← hdelivers] at hstays

/-- A file of three bytes, of which a read gives two at most, and that cannot be closed. -/
theorem short_reads_stream :
    let mishap : Mishap := { fault := some ⟨.closeFile, 0, .io⟩, readLimit := some 2 }
    let volume := (Volume.fresh 1 64).put [[97]] (.file [1, 2, 3])
    let s : Scene 1 1 (Disturbed Mishap Volume) FileHandle Unit :=
      initial {} ⟨1, 1⟩ ⟨mishap, volume⟩
    let transport : Transport Unit := ⟨fun _ => none, true⟩
    let as : List (Action (Disturbed Mishap Volume) Unit) :=
      [.request (.frame transport (Packet.frame ⟨.cat, 0, [97]⟩)), .aside .poll, .resume, .resume,
        .resume, .resume]
    s.events as = [.quiet, .quiet, .quiet, .quiet, .answered (.served (.ok .invalidCommand)
      [⟨.success, [2, 1, 2]⟩, ⟨.success, [1, 3]⟩, .ofStatus .invalidCommand]), .quiet] ∧
    ∃ n qs sent result rs w,
      s.AnswersLast (as.take (n + 1)) qs
        (.served (.ok result.status) (rs ++ [.ofStatus result.status]), .initial {}) w ∧
      s.device.Sends (Disturbed.supply Mishap) transport [97] [1, 2, 3] sent result rs w := by
  intro mishap volume s transport as
  have hbs : ∀ b ∈ as.tail, b.Waits (Disturbed.supply Mishap).LeavesFiles := by
    intro b hb
    simp only [as, List.tail_cons, List.mem_cons, List.not_mem_nil, or_false] at hb
    obtain rfl | rfl | rfl | rfl | rfl := hb <;> trivial
  have hflowing : Disturbance.Flowing mishap := Disturbance.flowing_mishap (by decide)
  have hholds : (Disturbed.supply Mishap).Holds volume.tree [97] [1, 2, 3] :=
    ⟨[[97]], rfl, rfl, by decide⟩
  refine ⟨by decide +kernel, ?_⟩
  exact cat_streams_file (Disturbed.supply Mishap) {} ⟨1, 1⟩ ⟨mishap, volume⟩ [] (.initial {})
    transport (Packet.frame ⟨.cat, 0, [97]⟩) [97] [1, 2, 3] ⟨.cat, 0, [97]⟩ as.tail rfl
    (by decide +kernel) rfl rfl hflowing hholds (fun _ => rfl) hbs (by decide)

end Scene

end PanelLink
