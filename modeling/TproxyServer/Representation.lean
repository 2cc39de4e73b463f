import TproxyServer.Queues

/-! # The tombstone ring and the index of queued WINDOW frames

`closedOrder`, `closedStart` and `closedStreams` are a ring of the recent closings
(`tombstone_ring`).  `pendingWindows` points at the last WINDOW that is queued for a stream,
and an earlier one is left behind only where the two amounts do not fit one frame
(`window_index`). -/

namespace TproxyServer

open Interaction

variable {limits : Limits} {carrier : CarrierMode} {sha256 : Bytes → Bytes} {s s' : Session}
  {t es : List Event} {scope : Scope}

/-! ### The tombstone ring -/

/-- **The tombstone ring**: `closedOrder` lists the ids of `closedStreams`, each once; read from
`closedStart` on it is the recent end of all the closings recorded so far, oldest first; and
no id is both live and closed. -/
theorem tombstone_ring {σ : Traced} (h : Reachable sha256 limits carrier σ) :
    σ.session.closedOrder.Nodup ∧
      σ.session.closedOrder.length ≤ limits.maxClosedStreamIDs ∧
      (∀ id, id ∈ σ.session.closedOrder ↔ id ∈ σ.session.closedStreams) ∧
      σ.session.closedOrder.rotate σ.session.closedStart =
        (closings σ.trace).rtake limits.maxClosedStreamIDs ∧
      σ.session.closedStreams =
        ((closings σ.trace).rtake limits.maxClosedStreamIDs).toFinset ∧
      σ.session.closedStreams.card =
        min limits.maxClosedStreamIDs (closings σ.trace).length ∧
      ∀ id, ¬ (σ.session.streams.get id ≠ none ∧ id ∈ σ.session.closedStreams) := by
  have hring := h.sound.toRing
  have hlength := hring.ring.length_eq
  refine ⟨hring.distinct, ?_, fun id => ?_, hring.ring.recent, ?_, ?_, ?_⟩
  · omega
  · rw [hring.tombstones, List.mem_toFinset]
  · rw [hring.tombstones]
    ext id
    rw [List.mem_toFinset, List.mem_toFinset]
    exact hring.ring.mem_iff id
  · rw [hring.tombstones, List.toFinset_card_of_nodup hring.distinct, hlength]
  · rintro id ⟨hlive, hclosed⟩
    exact hring.disjoint id hlive hclosed

/-- Three streams come and go where two tombstones are kept. -/
def twoTombstones : Limits :=
  { defaultLimits with maxClosedStreamIDs := 2, maxClosedStreamIDs_pos := by decide }

theorem tombstone_ring_wraps : ∃ σ, Reachable id twoTombstones .https σ ∧
    σ.session.closedOrder = [3, 2] ∧ σ.session.closedStart = 1 ∧ closings σ.trace = [1, 2, 3] ∧
    σ.session.closedOrder.rotate σ.session.closedStart =
      (closings σ.trace).rtake twoTombstones.maxClosedStreamIDs := by
  let body := [1, 2, 3].flatMap fun i => encode .open i [] ++ encode .close i []
  have hplay : (play id ⟨newSession twoTombstones .https, []⟩
      [(.processUpBegin 1 body, []), (.processUpCommit 1 body, [])]).map (fun σ =>
        (σ.session.closedOrder, σ.session.closedStart, closings σ.trace)) =
      some ([3, 2], 1, [1, 2, 3]) := by
    decide +kernel
  obtain ⟨σ, hσ, he⟩ := Option.map_eq_some_iff.mp hplay
  simp only [Prod.mk.injEq] at he
  have hr : Reachable id twoTombstones .https σ := Reachable.start.play hσ
  exact ⟨σ, hr, he.1, he.2.1, he.2.2, (tombstone_ring hr).2.2.2.1⟩

/-! ### The index of a queue -/

section

variable {d d' : Downlink} {ty : FrameType} {id : ℕ} {payload : Bytes}

/-- The amount of a queued WINDOW. -/
def QueuedFrame.amount (f : QueuedFrame) : ℕ := (windowAmount f.payload).1

/-- The frame is a WINDOW of the stream. -/
def QueuedFrame.Credits (f : QueuedFrame) (id : ℕ) : Prop := f.typeCode = .window ∧ f.streamID = id

/-- `pendingWindows` points at the last WINDOW of a stream.  An earlier one is followed by
another which it could not be merged with. -/
structure Downlink.Indexed (d : Downlink) : Prop where
  entry : ∀ windows id index, d.pendingWindows = some windows → windows.get id = some index →
    ∃ f, d.pendingFrames[index]? = some f ∧ f.Credits id ∧
      ∀ k g, index < k → d.pendingFrames[k]? = some g → ¬ g.Credits id
  listed : ∀ index f id, d.pendingFrames[index]? = some f → f.Credits id →
    (∃ windows, d.pendingWindows = some windows ∧ windows.get id = some index) ∨
      ∃ k g, index < k ∧ d.pendingFrames[k]? = some g ∧ g.Credits id ∧
        (∀ i e, index < i → i < k → d.pendingFrames[i]? = some e → ¬ e.Credits id) ∧
        maxUint32 < f.amount + g.amount
  present : d.pendingFrames ≠ [] → d.pendingWindows ≠ none

theorem Downlink.Indexed.empty (h : d.pendingFrames = []) (hw : d.pendingWindows = none) :
    d.Indexed where
  entry _ _ _ hsome := by
    rw [hw] at hsome
    cases hsome
  listed _ _ _ hf := by
    rw [h] at hf
    cases hf
  present hne := absurd h hne

theorem Downlink.Indexed.new : Downlink.Indexed {} where
  entry windows id index hw hi := by
    cases hw
    rw [Table.get_nil] at hi
    cases hi
  listed _ _ _ hf := by cases hf
  present hne := absurd rfl hne

/-- The frame stands for the same, and a WINDOW for no less. -/
structure QueuedFrame.Grows (f g : QueuedFrame) : Prop where
  credits : ∀ id, g.Credits id ↔ f.Credits id
  amount : ∀ id, f.Credits id → f.amount ≤ g.amount

theorem QueuedFrame.Grows.refl (f : QueuedFrame) : f.Grows f :=
  ⟨fun _ => Iff.rfl, fun _ _ => le_rfl⟩

/-- A frame of an indexed queue grows where it stands. -/
theorem Downlink.Indexed.set {index : ℕ} {f g : QueuedFrame} (h : d.Indexed)
    (hf : d.pendingFrames[index]? = some f) (hgrows : f.Grows g) (notify : Bool) :
    Downlink.Indexed { d with pendingFrames := d.pendingFrames.set index g, notify } := by
  have hlt := (List.getElem?_eq_some_iff.mp hf).1
  have hforth : ∀ (k : ℕ) (e : QueuedFrame), d.pendingFrames[k]? = some e →
      ∃ e', (d.pendingFrames.set index g)[k]? = some e' ∧ e.Grows e' := by
    intro k e he
    by_cases hk : index = k
    · subst hk
      rw [hf] at he
      cases he
      exact ⟨g, List.getElem?_set_self hlt, hgrows⟩
    · exact ⟨e, (List.getElem?_set_ne hk).trans he, .refl e⟩
  have hback : ∀ (k : ℕ) (e' : QueuedFrame), (d.pendingFrames.set index g)[k]? = some e' →
      ∃ e, d.pendingFrames[k]? = some e ∧ e.Grows e' := by
    intro k e' he'
    by_cases hk : index = k
    · subst hk
      rw [List.getElem?_set_self hlt] at he'
      cases he'
      exact ⟨f, hf, hgrows⟩
    · exact ⟨e', (List.getElem?_set_ne hk).symm.trans he', .refl e'⟩
  constructor
  · intro windows i k hw hi
    obtain ⟨e, he, hcredits, hlast⟩ := h.entry windows i k hw hi
    obtain ⟨e', he', hee'⟩ := hforth k e he
    refine ⟨e', he', (hee'.credits i).mpr hcredits, fun j b' hj hb' hc => ?_⟩
    obtain ⟨b, hb, hbb'⟩ := hback j b' hb'
    exact hlast j b hj hb ((hbb'.credits i).mp hc)
  · intro k e' i he' hcredits
    obtain ⟨e, he, hee'⟩ := hback k e' he'
    have hcredits₀ := (hee'.credits i).mp hcredits
    rcases h.listed k e i he hcredits₀ with hentry | ⟨j, b, hj, hb, hbc, hbetween, hover⟩
    · exact .inl hentry
    · obtain ⟨b', hb', hbb'⟩ := hforth j b hb
      refine .inr ⟨j, b', hj, hb', (hbb'.credits i).mpr hbc, fun m c' hkm hmj hc' hcc => ?_, ?_⟩
      · obtain ⟨c, hc, hcc'⟩ := hback m c' hc'
        exact hbetween m c hkm hmj hc ((hcc'.credits i).mp hcc)
      · have he_le := hee'.amount i hcredits₀
        have hb_le := hbb'.amount i hbc
        omega
  · intro hne
    refine h.present fun hnil => hne ?_
    rw [hnil]
    rfl

/-- A frame that is no WINDOW is put behind. -/
theorem Downlink.Indexed.push {f : QueuedFrame} (h : d.Indexed) (hf : f.typeCode ≠ .window)
    (hpresent : d.pendingWindows ≠ none) (notify : Bool) :
    Downlink.Indexed { d with pendingFrames := d.pendingFrames ++ [f], notify } := by
  have hnew : ∀ (k : ℕ) (g : QueuedFrame) i, (d.pendingFrames ++ [f])[k]? = some g → g.Credits i →
      d.pendingFrames[k]? = some g := by
    intro k g i hg hcredits
    by_cases hk : k < d.pendingFrames.length
    · exact (List.getElem?_append_left hk).symm.trans hg
    · rw [List.getElem?_append_right (by omega)] at hg
      obtain ⟨hlt, heq⟩ := List.getElem?_eq_some_iff.mp hg
      rw [List.getElem_singleton] at heq
      exact absurd (heq ▸ hcredits.1) hf
  have hold : ∀ (k : ℕ) (g : QueuedFrame), d.pendingFrames[k]? = some g →
      (d.pendingFrames ++ [f])[k]? = some g :=
    fun k g hg => (List.getElem?_append_left (List.getElem?_eq_some_iff.mp hg).1).trans hg
  constructor
  · intro windows i k hw hi
    obtain ⟨g, hg, hcredits, hlast⟩ := h.entry windows i k hw hi
    exact ⟨g, hold k g hg, hcredits, fun j e hj he hc => hlast j e hj (hnew j e i he hc) hc⟩
  · intro k g i hg hcredits
    rcases h.listed k g i (hnew k g i hg hcredits) hcredits with
      hentry | ⟨j, b, hj, hb, hbc, hbetween, hover⟩
    · exact .inl hentry
    · refine .inr ⟨j, b, hj, hold j b hb, hbc, fun m c hkm hmj hc hcc => ?_, hover⟩
      exact hbetween m c hkm hmj (hnew m c i hc hcc) hcc
  · exact fun _ => hpresent

/-- A WINDOW is put behind that could not be merged, and is indexed. -/
theorem Downlink.Indexed.pushWindow {f : QueuedFrame} {windows : Table ℕ ℕ} (h : d.Indexed)
    (hf : f.Credits id) (hw : d.pendingWindows = some windows)
    (hover : ∀ index g, windows.get id = some index → d.pendingFrames[index]? = some g →
      maxUint32 < g.amount + f.amount) (notify : Bool) :
    Downlink.Indexed { d with
      pendingFrames := d.pendingFrames ++ [f]
      pendingWindows := some (windows.put id d.pendingFrames.length)
      notify } := by
  have hself : (d.pendingFrames ++ [f])[d.pendingFrames.length]? = some f :=
    List.getElem?_concat_length
  have hold : ∀ (k : ℕ) (g : QueuedFrame), d.pendingFrames[k]? = some g →
      (d.pendingFrames ++ [f])[k]? = some g :=
    fun k g hg => (List.getElem?_append_left (List.getElem?_eq_some_iff.mp hg).1).trans hg
  have hnew : ∀ (k : ℕ) (g : QueuedFrame), (d.pendingFrames ++ [f])[k]? = some g →
      d.pendingFrames[k]? = some g ∨ k = d.pendingFrames.length ∧ g = f := by
    intro k g hg
    by_cases hk : k < d.pendingFrames.length
    · exact .inl ((List.getElem?_append_left hk).symm.trans hg)
    · have hlt := (List.getElem?_eq_some_iff.mp hg).1
      rw [List.length_append, List.length_singleton] at hlt
      have hkn : k = d.pendingFrames.length := by omega
      subst hkn
      rw [hself] at hg
      exact .inr ⟨rfl, (Option.some.inj hg).symm⟩
  constructor
  · intro w i k hw' hk
    cases hw'
    rw [Table.get_put] at hk
    split_ifs at hk with hi
    · cases hk
      subst hi
      refine ⟨f, hself, hf, fun j g hj hg => ?_⟩
      have hlt := (List.getElem?_eq_some_iff.mp hg).1
      rw [List.length_append, List.length_singleton] at hlt
      omega
    · obtain ⟨g, hg, hcredits, hlast⟩ := h.entry windows i k hw hk
      refine ⟨g, hold k g hg, hcredits, fun j e hj he hc => ?_⟩
      rcases hnew j e he with he | ⟨-, rfl⟩
      · exact hlast j e hj he hc
      · exact hi (hc.2.symm.trans hf.2)
  · intro k g i hg hcredits
    rcases hnew k g hg with hold₀ | ⟨rfl, rfl⟩
    · have hklt := (List.getElem?_eq_some_iff.mp hold₀).1
      rcases h.listed k g i hold₀ hcredits with ⟨w, hw', hentry⟩ | ⟨j, b, hj, hb, hbc, hbetween, ho⟩
      · rw [hw] at hw'
        cases hw'
        by_cases hi : i = id
        · subst hi
          obtain ⟨g', hg', -, hlast⟩ := h.entry windows i k hw hentry
          rw [hold₀] at hg'
          cases hg'
          refine .inr ⟨_, f, hklt, hself, hf, fun m c hkm hmj hc hcc => ?_, ?_⟩
          rcases hnew m c hc with hc | ⟨rfl, -⟩
          · exact hlast m c hkm hc hcc
          · omega
          · exact hover k g hentry hold₀
        · exact .inl ⟨_, rfl, by rw [Table.get_put, if_neg hi, hentry]⟩
      · have hjlt := (List.getElem?_eq_some_iff.mp hb).1
        refine .inr ⟨j, b, hj, hold j b hb, hbc, fun m c hkm hmj hc hcc => ?_, ho⟩
        rcases hnew m c hc with hc | ⟨rfl, -⟩
        · exact hbetween m c hkm hmj hc hcc
        · omega
    · have hi : i = id := hcredits.2.symm.trans hf.2
      subst hi
      exact .inl ⟨_, rfl, Table.get_put_self _ _ _⟩
  · rintro - ⟨⟩

theorem forgetWindows_get {start index : ℕ} {frames : List QueuedFrame} {windows : Table ℕ ℕ}
    (h : windows.get id = some index) (hlater : start + frames.length ≤ index) :
    (forgetWindows start frames windows).get id = some index := by
  induction frames generalizing start windows with
  | nil => exact h
  | cons f rest ih =>
      rw [List.length_cons] at hlater
      unfold forgetWindows
      refine ih ?_ (by omega)
      split_ifs with hf
      · rw [Table.get_del, if_neg]
        · exact h
        · rintro rfl
          rw [h] at hf
          have hstart : index = start := hf.2
          omega
      · exact h

/-- The queue without its first frames is indexed by what is left of the index, moved. -/
theorem Downlink.Indexed.takeBatch (h : d.Indexed) (limits : Limits) (cursor : ℕ) :
    ((d.takeBatch limits).2.deliver (d.takeBatch limits).1 cursor).Indexed := by
  unfold Downlink.takeBatch Downlink.deliver Downlink.leave
  dsimp only
  generalize batchCount limits.carrierBatchBytes maxBatchFrames 0 0 d.pendingFrames = count
  have hdrop : ∀ (k : ℕ), (d.pendingFrames.drop count)[k]? = d.pendingFrames[count + k]? :=
    fun k => List.getElem?_drop
  constructor
  · rintro windows i index hw hi
    obtain ⟨w, hw', rfl⟩ := Option.map_eq_some_iff.mp hw
    rw [Table.get_mapValues] at hi
    obtain ⟨k, hk, rfl⟩ := Option.map_eq_some_iff.mp hi
    obtain ⟨hget, hleft⟩ := get_forgetWindows hk
    obtain ⟨f, hf, hcredits, hlast⟩ := h.entry w i k hw' hget
    have hge : count ≤ k := by
      by_contra hlt
      refine hleft k f ?_ hcredits.1 hcredits.2 (by omega)
      rw [List.getElem?_take_of_lt (by omega)]
      exact hf
    refine ⟨f, ?_, hcredits, fun j g hj hg => ?_⟩
    · dsimp only
      rw [hdrop, Nat.add_sub_cancel' hge]
      exact hf
    · dsimp only at hg
      rw [hdrop] at hg
      exact hlast (count + j) g (by omega) hg
  · intro index f i hf hcredits
    dsimp only at hf ⊢
    rw [hdrop] at hf
    rcases h.listed (count + index) f i hf hcredits with
      ⟨w, hw, hentry⟩ | ⟨k, g, hk, hg, hgc, hbetween, hover⟩
    · refine .inl ⟨_, by rw [hw]; rfl, ?_⟩
      rw [Table.get_mapValues, forgetWindows_get hentry]
      · exact congrArg some (Nat.add_sub_cancel_left count index)
      · have htake := List.length_take_le count d.pendingFrames
        omega
    · have hsplit : count + (k - count) = k := by omega
      refine .inr ⟨k - count, g, by omega, by rw [hdrop, hsplit, hg], hgc, ?_, hover⟩
      intro m e hm hmk he hec
      rw [hdrop] at he
      exact hbetween (count + m) e (by omega) (by omega) he hec
  · intro hne hnone
    dsimp only at hne hnone
    rw [Option.map_eq_none_iff] at hnone
    refine h.present (fun hnil => hne ?_) hnone
    rw [hnil, List.drop_nil]

/-! ### What happens to a queue -/

/-- One thing that happens to a downlink, and the frame that it queues, if any.  The amount of a
WINDOW is only ever added to the WINDOW that the index has for its stream, and that frame is still
queued; DATA is only joined to DATA of its stream at the end. -/
inductive QueueStep (limits : Limits) (d : Downlink) : List Frame → Downlink → Prop
  | coalesce {windows : Table ℕ ℕ} {id index : ℕ} {payload : Bytes} {f : QueuedFrame}
      (hwindows : d.pendingWindows = some windows) (hindex : windows.get id = some index)
      (hf : d.pendingFrames[index]? = some f) (hcredits : f.Credits id)
      (hfits : f.amount + (windowAmount payload).1 ≤ maxUint32) :
      QueueStep limits d [⟨.window, id, payload⟩] { d with
        pendingFrames := d.pendingFrames.set index
          (f.setAmount (f.amount + (windowAmount payload).1)) }.signal
  | extend {id : ℕ} {payload : Bytes} {last : QueuedFrame}
      (hlast : d.pendingFrames = d.pendingFrames.dropLast ++ [last])
      (hdata : last.typeCode = .data) (hid : last.streamID = id) :
      QueueStep limits d [⟨.data, id, payload⟩] { d with
        pendingFrames := d.pendingFrames.dropLast ++ [last.extend payload] }.signal
  /-- A frame is queued under an index; a WINDOW next to one that is indexed only where the two
  do not fit one frame. -/
  | append {windows : Table ℕ ℕ} {ty : FrameType} {id : ℕ} {payload : Bytes}
      (hwindows : d.pendingWindows = some windows)
      (hover : ∀ index g, ty = .window → windows.get id = some index →
        d.pendingFrames[index]? = some g → maxUint32 < g.amount + (windowAmount payload).1) :
      QueueStep limits d [⟨ty, id, payload⟩] { d with
        pendingFrames := d.pendingFrames ++ [(⟨encode ty id payload, ty, id,
          (encode ty id payload).length + queueItemCost⟩ : QueuedFrame)]
        pendingWindows := some (if ty = FrameType.window then
          windows.put id d.pendingFrames.length else windows) }.signal
  | attend (active : Bool) (superseded : Option ℕ) (notify : Bool) :
      QueueStep limits d [] { d with downActive := active, superseded, notify }
  | acknowledge : QueueStep limits d [] d.acknowledge
  | deliver (cursor : ℕ) :
      QueueStep limits d [] ((d.takeBatch limits).2.deliver (d.takeBatch limits).1 cursor)
  | drop : QueueStep limits d [] d.drop

/-- At most one such thing happens, and these are the frames that it queues. -/
def Downlink.MovesBy (limits : Limits) (d : Downlink) (queued : List Frame) (d' : Downlink) :
    Prop :=
  queued = [] ∧ d' = d ∨ QueueStep limits d queued d'

/-- Some such things happen one after the other, and these are the frames that they queue. -/
inductive QueueSteps (limits : Limits) (d : Downlink) : List Frame → Downlink → Prop
  | refl : QueueSteps limits d [] d
  | tail {d₁ d₂ : Downlink} {queued more : List Frame} :
      QueueSteps limits d queued d₁ → QueueStep limits d₁ more d₂ →
      QueueSteps limits d (queued ++ more) d₂

theorem QueueSteps.move {d₁ d₂ : Downlink} {queued more : List Frame}
    (h : QueueSteps limits d queued d₁) (hmove : d₁.MovesBy limits more d₂) :
    QueueSteps limits d (queued ++ more) d₂ := by
  rcases hmove with ⟨rfl, rfl⟩ | hstep
  · rw [List.append_nil]
    exact h
  · exact h.tail hstep

/-- A frame is queued: a step of a queue that has an index. -/
theorem Enqueue.queueStep (h : Enqueue limits d ty id payload d') (hd : d.Well)
    (hpresent : d.pendingWindows ≠ none) : QueueStep limits d [⟨ty, id, payload⟩] d' := by
  cases h with
  | @merge id index payload f hindex hf htotal =>
      have hcredits := hd.indexed_frame hindex hf
      unfold Downlink.windowIndex at hindex
      rw [if_pos rfl] at hindex
      obtain ⟨windows, hwindows, hget⟩ := Option.bind_eq_some_iff.mp hindex
      exact .coalesce hwindows hget hf hcredits htotal
  | @extend id payload last hlast =>
      obtain ⟨heq, hdata, -, hid⟩ := Downlink.extendable_eq hlast
      exact .extend heq hdata hid
  | @append ty id payload windows hmerge hextend hwindows =>
      obtain ⟨w, hw⟩ := Option.ne_none_iff_exists'.mp hpresent
      have hover : ∀ index g, ty = .window → w.get id = some index →
          d.pendingFrames[index]? = some g →
          maxUint32 < g.amount + (windowAmount payload).1 := by
        intro index g htype hindex hg
        refine hmerge index g ?_ hg
        unfold Downlink.windowIndex
        rw [if_pos htype, hw]
        exact hindex
      have hstep : QueueStep limits d [⟨ty, id, payload⟩] _ := QueueStep.append hw hover
      split_ifs at hwindows with hty
      · obtain ⟨w', hw', rfl⟩ := hwindows
        rw [hw] at hw'
        cases hw'
        rw [if_pos hty] at hstep
        exact hstep
      · subst hwindows
        rw [if_neg hty, ← hw] at hstep
        exact hstep

theorem QueueStep.indexed {queued : List Frame} (h : QueueStep limits d queued d') (hd : d.Well)
    (hi : d.Indexed) : d'.Indexed := by
  cases h with
  | @coalesce windows id index payload f hwindows hindex hf hcredits hfits =>
      generalize (windowAmount payload).1 = amount at hfits ⊢
      have hwell := hd.frames f (List.mem_of_getElem? hf)
      have hgrows : f.Grows (f.setAmount (f.amount + amount)) := by
        refine ⟨fun i => Iff.rfl, fun i _ => ?_⟩
        have htaken : (f.setAmount (f.amount + amount)).amount = f.amount + amount := by
          unfold QueuedFrame.amount
          rw [hwell.setAmount_payload hcredits.1]
          exact windowAmount_windowPayload hfits
        omega
      exact hi.set hf hgrows true
  | @extend id payload last hlast hdata _ =>
      have hno : ∀ i, ¬ last.Credits i := fun i hc => by
        have hwindow := hc.1
        rw [hdata] at hwindow
        cases hwindow
      have hset : d.pendingFrames.dropLast ++ [last.extend payload] =
          d.pendingFrames.set d.pendingFrames.dropLast.length (last.extend payload) := by
        conv_rhs => rw [hlast]
        simp
      have hget : d.pendingFrames[d.pendingFrames.dropLast.length]? = some last := by
        conv_lhs =>
          arg 1
          rw [hlast]
        simp
      have hgrows : last.Grows (last.extend payload) :=
        ⟨fun i => Iff.rfl, fun i hc => absurd hc (hno i)⟩
      rw [hset]
      exact hi.set hget hgrows true
  | @append windows ty id payload hwindows hover =>
      by_cases hty : ty = .window
      · rw [if_pos hty]
        exact hi.pushWindow ⟨hty, rfl⟩ hwindows (fun index g => hover index g hty) true
      · rw [if_neg hty, ← hwindows]
        exact hi.push hty (by simp [hwindows]) true
  | attend => exact ⟨hi.entry, hi.listed, hi.present⟩
  | acknowledge => exact ⟨hi.entry, hi.listed, hi.present⟩
  | deliver cursor => exact hi.takeBatch limits cursor
  | drop => exact .empty rfl rfl

/-! ### What happens to the queues in use -/

/-- `P` holds of the session's queue and of those of the lanes it has. -/
structure Session.InUse (P : Downlink → Prop) (s : Session) : Prop where
  own : P s.down
  lanes : ∀ id l, s.carrierLanes.get id = some l → P l.down

/-- Each queue in use comes from what was there, or belongs to a new lane. -/
structure Session.Moves (R : QueueRef → Downlink → Downlink → Prop) (s s' : Session) : Prop where
  own : R .session s.down s'.down
  lanes : ∀ id l', s'.carrierLanes.get id = some l' →
    (∃ l, s.carrierLanes.get id = some l ∧ l'.object = l.object ∧
        R (.lane id l'.object) l.down l'.down) ∨
      s.nextObject ≤ l'.object ∧ R (.lane id l'.object) {} l'.down

namespace Session.InUse

variable {P : Downlink → Prop}

theorem queueRef (h : s.InUse P) {q : QueueRef} (hq : s.queueRef id = some q) :
    P (s.queue q) := by
  unfold Session.queueRef at hq
  split_ifs at hq
  · obtain ⟨l, hl, rfl⟩ := Option.map_eq_some_iff.mp hq
    rw [Session.queue_of_get hl]
    exact h.lanes id l hl
  · cases hq
    exact h.own

theorem setQueue (h : s.InUse P) {q : QueueRef} (hd : P (s.queue q) → P d) :
    (s.setQueue q d).InUse P := by
  constructor
  · cases q with
    | session => exact hd h.own
    | lane i object =>
        obtain ⟨lanes, released, he⟩ := s.modifyLane_eq i object fun l => { l with down := d }
        unfold Session.setQueue
        dsimp only
        rw [he]
        exact h.own
  · intro i l' hl'
    rw [Session.setQueue_lanes] at hl'
    obtain ⟨l, hl, rfl⟩ := Option.map_eq_some_iff.mp hl'
    split_ifs with hq
    · subst hq
      rw [Session.queue_of_get hl] at hd
      exact hd (h.lanes i l hl)
    · exact h.lanes i l hl

theorem putLane (h : s.InUse P) {l : CarrierLane} (hl : P l.down) : (s.putLane id l).InUse P := by
  refine ⟨h.own, fun i l' hl' => ?_⟩
  rw [Session.putLane_lanes, Table.get_put] at hl'
  split_ifs at hl'
  · cases hl'
    exact hl
  · exact h.lanes i l' hl'

theorem congr (h : s.InUse P) (hdown : s'.down = s.down)
    (hlanes : ∀ id l, s'.carrierLanes.get id = some l → s.carrierLanes.get id = some l) :
    s'.InUse P :=
  ⟨hdown ▸ h.own, fun i l hl => h.lanes i l (hlanes i l hl)⟩

end Session.InUse

namespace Session.Moves

variable {R : QueueRef → Downlink → Downlink → Prop}

theorem refl (hR : ∀ q d, R q d d) (s : Session) : s.Moves R s :=
  ⟨hR _ _, fun _ l hl => .inl ⟨l, hl, rfl, hR _ _⟩⟩

/-- No queue is touched. -/
theorem of_eq (hR : ∀ q d, R q d d) (hdown : s'.down = s.down)
    (hlanes : ∀ id l, s'.carrierLanes.get id = some l → s.carrierLanes.get id = some l) :
    s.Moves R s' :=
  ⟨hdown ▸ hR _ _, fun i l hl => .inl ⟨l, hlanes i l hl, rfl, hR _ _⟩⟩

theorem setQueue {q : QueueRef} (hR : ∀ q', q' ≠ q → ∀ d, R q' d d) (hd : R q (s.queue q) d) :
    s.Moves R (s.setQueue q d) := by
  constructor
  · cases q with
    | session => exact hd
    | lane i object =>
        obtain ⟨lanes, released, he⟩ := s.modifyLane_eq i object fun l => { l with down := d }
        unfold Session.setQueue
        dsimp only
        rw [he]
        exact hR .session (by simp) s.down
  · intro i l' hl'
    rw [Session.setQueue_lanes] at hl'
    obtain ⟨l, hl, rfl⟩ := Option.map_eq_some_iff.mp hl'
    refine .inl ⟨l, hl, ?_⟩
    split_ifs with hq
    · subst hq
      rw [Session.queue_of_get hl] at hd
      exact ⟨rfl, hd⟩
    · exact ⟨rfl, hR _ (Ne.symm hq) _⟩

/-- A lane is written, its object and its queue staying. -/
theorem of_map (hR : ∀ q d, R q d d) {f : ℕ → CarrierLane → CarrierLane}
    (hdown : s'.down = s.down)
    (hlanes : ∀ id, s'.carrierLanes.get id = (s.carrierLanes.get id).map (f id))
    (hf : ∀ id l, s.carrierLanes.get id = some l →
      (f id l).object = l.object ∧ (f id l).down = l.down) : s.Moves R s' := by
  refine ⟨hdown ▸ hR _ _, fun i l' hl' => ?_⟩
  rw [hlanes] at hl'
  obtain ⟨l, hl, rfl⟩ := Option.map_eq_some_iff.mp hl'
  obtain ⟨hobject, hdown⟩ := hf i l hl
  exact .inl ⟨l, hl, hobject, hdown ▸ hR _ _⟩

theorem trans {R' R'' : QueueRef → Downlink → Downlink → Prop} {s'' : Session}
    (hR : ∀ {q d d' d''}, R q d d' → R' q d' d'' → R'' q d d'')
    (hnew : ∀ {id object d d'}, s'.nextObject ≤ object → R' (.lane id object) d d' →
      R'' (.lane id object) d d')
    (h : s.Moves R s') (h' : s'.Moves R' s'') (hnext : s.nextObject ≤ s'.nextObject) :
    s.Moves R'' s'' := by
  refine ⟨hR h.own h'.own, fun i l'' hl'' => ?_⟩
  rcases h'.lanes i l'' hl'' with ⟨l', hl', hobject', hmoves'⟩ | ⟨hfresh', hmoves'⟩
  · rcases h.lanes i l' hl' with ⟨l, hl, hobject, hmoves⟩ | ⟨hfresh, hmoves⟩
    · exact .inl ⟨l, hl, hobject'.trans hobject, hR (hobject' ▸ hmoves) hmoves'⟩
    · exact .inr ⟨hobject' ▸ hfresh, hR (hobject' ▸ hmoves) hmoves'⟩
  · exact .inr ⟨hnext.trans hfresh', hnew hfresh' hmoves'⟩

end Session.Moves

/-- The queues of an open session have an index. -/
def Session.Windowed (s : Session) : Prop :=
  s.closed = false → s.InUse fun d => d.pendingWindows ≠ none

theorem QueueResult.windowed {ok : Bool} (h : QueueResult s ty id payload es s' ok)
    (hs : s.InUse fun d => d.pendingWindows ≠ none) :
    s'.InUse fun d => d.pendingWindows ≠ none := by
  cases h with
  | refused => exact hs
  | @accepted q d cost items notify hq h =>
      have hs' : (s.setPending cost items notify).InUse fun d => d.pendingWindows ≠ none :=
        hs.congr rfl fun _ _ hl => hl
      refine hs'.setQueue fun hpresent => ?_
      cases h with
      | append _ _ hwindows =>
          split_ifs at hwindows
          · obtain ⟨w, -, rfl⟩ := hwindows
            exact Option.some_ne_none _
          · subst hwindows
            exact hs.queueRef hq
      | _ => exact hs.queueRef hq

/-- The moves of the queues in use, each by the frames that these events queue on it. -/
abbrev Session.MovesBy (limits : Limits) (es : List Event) (s s' : Session) : Prop :=
  s.Moves (fun q d d' => d.MovesBy limits (queuedOn es q) d') s'

theorem QueueResult.moves {ok : Bool} (h : QueueResult s ty id payload es s' ok)
    (hwell : s.Downlinks Downlink.Well) (hs : s.InUse fun d => d.pendingWindows ≠ none)
    (hlimits : s.limits = limits) : s.MovesBy limits es s' := by
  cases h with
  | refused => exact .refl (fun _ _ => .inl ⟨rfl, rfl⟩) s
  | @accepted q d cost items notify hq h =>
      have hstep := h.queueStep (hwell.queue .new q) (hs.queueRef hq)
      rw [hlimits] at hstep
      have hmoves : (s.setPending cost items notify).MovesBy limits [.queued q ty id payload]
          ((s.setPending cost items notify).setQueue q d) := by
        refine .setQueue (fun q' hne d => .inl ⟨?_, rfl⟩) (.inr ?_)
        · simp [queuedOn, Ne.symm hne]
        · have hqueued : queuedOn [.queued q ty id payload] q = [⟨ty, id, payload⟩] := by
            simp [queuedOn]
          rw [hqueued]
          cases q <;> exact hstep
      exact ⟨hmoves.own, hmoves.lanes⟩

theorem Change.windowed {σ σ' : Traced} (h : Change scope σ σ') (hs : σ.session.Windowed) :
    σ'.session.Windowed := by
  have hwrite : ∀ {s : Session} {q : QueueRef} {d : Downlink}, s.Windowed →
      d.pendingWindows = (s.queue q).pendingWindows → (s.setQueue q d).Windowed := by
    intro s q d hs hd hopen
    obtain ⟨down, lanes, released, he⟩ := s.setQueue_eq q d
    rw [he] at hopen
    exact (hs hopen).setQueue fun hpresent => hd ▸ hpresent
  cases h with
  | openStream hopen => exact fun _ => (hs hopen).congr rfl fun _ _ hl => hl
  | drained hopen _ _ _ _ _ h _ =>
      exact fun _ => h.windowed ((hs hopen).congr rfl fun _ _ hl => hl)
  | read hopen _ _ _ h _ => exact fun _ => h.windowed ((hs hopen).congr rfl fun _ _ hl => hl)
  | queueClose hopen _ _ h _ _ _ => exact fun _ => h.windowed (hs hopen)
  | @rememberFull s t i old hopen _ _ _ _ _ =>
      refine fun _ => (hs hopen).congr rfl fun i l hl => ?_
      have hdel : (s.carrierLanes.del old).get i = some l := hl
      rw [Table.get_del] at hdel
      split_ifs at hdel
      exact hdel
  | @createLane s t i hopen _ _ _ =>
      intro _
      have hput : (s.putLane i { object := s.nextObject }).InUse fun d => d.pendingWindows ≠ none :=
        (hs hopen).putLane (Option.some_ne_none _)
      exact hput.congr rfl fun _ _ hl => hl
  | touchLane hl _ hdown =>
      intro hopen
      exact (hs hopen).putLane (by rw [hdown]; exact (hs hopen).lanes _ _ hl)
  | @dropLane s t i l hl _ _ _ =>
      refine fun hopen => (hs hopen).congr rfl fun j l' hl' => ?_
      rw [Session.delLane_lanes, Table.get_del] at hl'
      split_ifs at hl'
      exact hl'
  | attend => exact hwrite hs rfl
  | acknowledge => exact hwrite hs rfl
  | @deliver s t q cursor mine _ _ _ _ =>
      intro hopen
      obtain ⟨down, lanes, released, he⟩ := s.setQueue_eq q
        (((s.queue q).takeBatch s.limits).2.deliver ((s.queue q).takeBatch s.limits).1 cursor)
      rw [he] at hopen
      refine (hs hopen).setQueue fun hpresent hnone => hpresent ?_
      exact Option.map_eq_none_iff.mp hnone
  | close => exact fun hopen => by cases hopen
  | @laneUplink s t _ i object f _ hdown _ =>
      intro hopen
      obtain ⟨lanes, released, he⟩ := s.modifyLane_eq i object f
      have hopen' : s.closed = false := by rw [he] at hopen; exact hopen
      refine ⟨by rw [he]; exact (hs hopen').own, fun j l' hl' => ?_⟩
      rw [Session.modifyLane_lanes] at hl'
      obtain ⟨l, hl, rfl⟩ := Option.map_eq_some_iff.mp hl'
      split_ifs
      · rw [hdown]
        exact (hs hopen').lanes j l hl
      · exact (hs hopen').lanes j l hl
  | _ => exact fun hopen => (hs hopen).congr rfl fun _ _ hl => hl

/-- A change does at most one thing to a queue. -/
theorem Change.moves {σ σ' : Traced} (h : Change scope σ σ') (hlimits : σ.session.limits = limits)
    (hwell : σ.session.Downlinks Downlink.Well) (hs : σ.session.Windowed) :
    ∃ es, σ'.trace = σ.trace ++ es ∧ σ.session.MovesBy limits es σ'.session := by
  have haside : ∀ {s s' : Session} {t es : List Event}, (∀ q, queuedOn es q = []) →
      (∀ R : QueueRef → Downlink → Downlink → Prop, (∀ q d, R q d d) → s.Moves R s') →
      ∃ es', t ++ es = t ++ es' ∧ s.MovesBy limits es' s' :=
    fun hes h => ⟨_, rfl, h _ fun q _ => .inl ⟨hes q, rfl⟩⟩
  have hpure : ∀ {s s' : Session} {t : List Event},
      (∀ R : QueueRef → Downlink → Downlink → Prop, (∀ q d, R q d d) → s.Moves R s') →
      ∃ es', t = t ++ es' ∧ s.MovesBy limits es' s' :=
    fun h => ⟨[], (List.append_nil _).symm, h _ fun q _ => .inl ⟨rfl, rfl⟩⟩
  have hsame : ∀ {s s' : Session}, s'.down = s.down → s'.carrierLanes = s.carrierLanes →
      ∀ R : QueueRef → Downlink → Downlink → Prop, (∀ q d, R q d d) → s.Moves R s' :=
    fun hdown hlanes _ hR => .of_eq hR hdown fun _ _ hl => hlanes ▸ hl
  have hwrite : ∀ {s : Session} {t es : List Event} {q : QueueRef} {d : Downlink},
      (∀ q, queuedOn es q = []) → QueueStep limits (s.queue q) [] d →
      ∃ es', t ++ es = t ++ es' ∧ s.MovesBy limits es' (s.setQueue q d) := by
    intro s t es q d hes hstep
    refine ⟨es, rfl, .setQueue (fun q' _ _ => .inl ⟨hes q', rfl⟩) (.inr ?_)⟩
    rw [hes]
    exact hstep
  cases h with
  | silent he =>
      refine haside (fun q => queuedOn_aside (fun e he' => ?_) q) (hsame rfl rfl)
      rw [List.mem_singleton.mp he']
      exact Event.silent_aside he
  | openStream => exact haside (fun _ => rfl) (hsame rfl rfl)
  | stream _ _ h _ => exact haside (fun _ => by cases h <;> rfl) (hsame rfl rfl)
  | drained hopen _ _ _ _ _ h _ =>
      have hmoves := h.moves (hwell.congr rfl rfl rfl) ((hs hopen).congr rfl fun _ _ hl => hl)
        hlimits
      exact ⟨_, rfl, hmoves.own, hmoves.lanes⟩
  | read hopen _ _ _ h _ =>
      have hmoves := h.moves (hwell.congr rfl rfl rfl) ((hs hopen).congr rfl fun _ _ hl => hl)
        hlimits
      exact ⟨_, rfl, hmoves.own, hmoves.lanes⟩
  | queueClose hopen _ _ h _ _ _ => exact ⟨_, rfl, h.moves hwell (hs hopen) hlimits⟩
  | rememberRoom => exact haside (fun _ => rfl) (hsame rfl rfl)
  | @rememberFull s t i old hopen _ _ _ _ _ =>
      rw [List.append_assoc]
      refine haside (fun _ => rfl) fun R hR => .of_eq hR rfl fun i l hl => ?_
      have hdel : (s.carrierLanes.del old).get i = some l := hl
      rw [Table.get_del] at hdel
      split_ifs at hdel
      exact hdel
  | @createLane s t i hopen hnone _ _ =>
      refine hpure fun R hR => ⟨hR _ _, fun j l' hl' => ?_⟩
      have hput : (s.carrierLanes.put i { object := s.nextObject }).get j = some l' := hl'
      rw [Table.get_put] at hput
      split_ifs at hput
      · cases hput
        exact .inr ⟨le_rfl, hR _ _⟩
      · exact .inl ⟨l', hput, rfl, hR _ _⟩
  | @touchLane s t i l l₁ hl hobject hdown _ _ _ =>
      refine hpure fun R hR => ⟨hR _ _, fun j l' hl' => ?_⟩
      rw [Session.putLane_lanes, Table.get_put] at hl'
      split_ifs at hl' with hj
      · cases hl'
        subst hj
        exact .inl ⟨l, hl, hobject, hdown ▸ hR _ _⟩
      · exact .inl ⟨l', hl', rfl, hR _ _⟩
  | @dropLane s t i l hl _ _ _ =>
      refine hpure fun R hR => .of_eq hR rfl fun j l' hl' => ?_
      rw [Session.delLane_lanes, Table.get_del] at hl'
      split_ifs at hl'
      exact hl'
  | @attend s t q _ active superseded notify _ _ =>
      obtain ⟨es, he, hmoves⟩ :=
        @hwrite s t [] q _ (fun _ => rfl) (.attend active superseded notify)
      exact ⟨es, (List.append_nil t).symm.trans he, hmoves⟩
  | @acknowledge s t q _ _ _ =>
      obtain ⟨es, he, hmoves⟩ := @hwrite s t [] q _ (fun _ => rfl) .acknowledge
      exact ⟨es, (List.append_nil t).symm.trans he, hmoves⟩
  | @deliver s t q cursor mine _ _ _ _ =>
      refine hwrite (fun _ => rfl) ?_
      rw [show s.limits = limits from hlimits]
      exact .deliver cursor
  | @close s t =>
      refine ⟨[], (List.append_nil _).symm, .inr .drop, fun i l' hl' => ?_⟩
      have hmap : (s.carrierLanes.mapValues CarrierLane.drop).get i = some l' := hl'
      rw [Table.get_mapValues] at hmap
      obtain ⟨l, hl, rfl⟩ := Option.map_eq_some_iff.mp hmap
      exact .inl ⟨l, hl, rfl, .inr .drop⟩
  | batch => exact haside (fun _ => rfl) (hsame rfl rfl)
  | @laneUplink s t _ i object f hobject hdown _ =>
      obtain ⟨lanes, released, he⟩ := s.modifyLane_eq i object f
      refine hpure fun R hR => .of_map hR (by rw [he])
        (fun j => s.modifyLane_lanes i object j f) fun j l _ => ?_
      split_ifs
      · exact ⟨hobject l, hdown l⟩
      · exact ⟨rfl, rfl⟩
  | _ => exact hpure (hsame rfl rfl)

/-- What the queues of a reachable session satisfy. -/
structure Represented (limits : Limits) (carrier : CarrierMode) (σ : Traced) : Prop where
  sound : Sound limits carrier σ
  well : σ.session.Downlinks Downlink.Well
  windowed : σ.session.Windowed
  indexed : σ.session.InUse Downlink.Indexed

end

theorem Change.represented {σ σ' : Traced} (h : Change scope σ σ')
    (hs : Represented limits carrier σ) : Represented limits carrier σ' where
  sound := h.sound hs.sound
  well := h.downlinks hs.well
  windowed := h.windowed hs.windowed
  indexed := by
    obtain ⟨es, -, hmoves⟩ := h.moves hs.sound.limits_eq hs.well hs.windowed
    have hstep : ∀ {d d' : Downlink} {queued : List Frame}, d.Well → d.Indexed →
        d.MovesBy limits queued d' → d'.Indexed := by
      rintro d d' queued hd hi (⟨-, rfl⟩ | hstep)
      · exact hi
      · exact hstep.indexed hd hi
    refine ⟨hstep hs.well.own hs.indexed.own hmoves.own, fun i l' hl' => ?_⟩
    rcases hmoves.lanes i l' hl' with ⟨l, hl, -, hmove⟩ | ⟨-, hmove⟩
    · exact hstep (hs.well.lanes i l hl) (hs.indexed.lanes i l hl) hmove
    · exact hstep .new .new hmove

theorem newSession_represented (limits : Limits) (carrier : CarrierMode) :
    Represented limits carrier ⟨newSession limits carrier, []⟩ := by
  have hlanes : ∀ {P : Downlink → Prop}, P {} → (newSession limits carrier).InUse P := by
    intro P hP
    unfold newSession
    split_ifs
    · refine ⟨hP, fun i l hl => ?_⟩
      have hput : (Table.nil.put 0 ({ object := 0 } : CarrierLane)).get i = some l := hl
      rw [Table.get_put] at hput
      split_ifs at hput
      · cases hput
        exact hP
      · cases hput
    · exact ⟨hP, by simp⟩
  exact ⟨newSession_sound _ _, newSession_downlinks _ _,
    fun _ => hlanes (Option.some_ne_none _), hlanes .new⟩

theorem Reachable.represented {σ : Traced} (h : Reachable sha256 limits carrier σ) :
    Represented limits carrier σ :=
  h.invariant (newSession_represented limits carrier) fun hc _ hs => hc.represented hs

/-- Over a chain the steps of each queue in use queue the frames that the history has for it. -/
theorem Changes.moves {σ σ' : Traced} (h : Changes scope σ σ')
    (hs : Represented limits carrier σ) (ho : σ.session.Objects) (hu : Unwritten σ) :
    ∃ es, σ'.trace = σ.trace ++ es ∧
      σ.session.Moves (fun q d d' => QueueSteps limits d (queuedOn es q) d') σ'.session := by
  induction h with
  | refl => exact ⟨[], (List.append_nil _).symm, .refl (fun _ _ => .refl) _⟩
  | @tail σ₁ σ₂ hfirst hlast ih =>
      obtain ⟨hs₁, ho₁, hu₁⟩ := Changes.invariant (I := fun τ => Represented limits carrier τ ∧
        τ.session.Objects ∧ Unwritten τ) (fun hc hI => ⟨hc.represented hI.1, hc.objects hI.2.1,
          hc.unwritten hI.2.1 hI.2.2⟩) hfirst ⟨hs, ho, hu⟩
      obtain ⟨es, he, hmoves⟩ := ih
      obtain ⟨es₁, he₁, hmoves₁⟩ := hlast.moves hs₁.sound.limits_eq hs₁.well hs₁.windowed
      refine ⟨es ++ es₁, by rw [he₁, he, List.append_assoc],
        hmoves.trans (fun h h' => ?_) (fun {id object d d'} hle hmove => ?_) hmoves₁
          (Changes.nextObject_mono hfirst)⟩
      · rw [queuedOn_append]
        exact h.move h'
      · have hnone : queuedOn es (.lane id object) = [] := by
          have := (hu₁ (.lane id object) object rfl hle).1
          rw [he, queuedOn_append, List.append_eq_nil_iff] at this
          exact this.2
        rw [queuedOn_append, hnone]
        exact QueueSteps.refl.move hmove

/-- **The index of WINDOW frames**: in an open session the queues in use have an index, which
points at the last WINDOW of each stream that has one queued; a WINDOW it does not point at
is followed by one it could not be merged with.  Every section moves these queues in steps,
one for each frame that it queues, that add an amount to the frame which the index has for the
stream, and to no other. -/
theorem window_index {σ : Traced} (h : Reachable sha256 limits carrier σ) :
    (σ.session.closed = false →
      σ.session.InUse fun d => d.pendingWindows ≠ none ∧ d.Indexed) ∧
    ∀ {c : Section} {r : Reply} {σ' : Traced}, Step sha256 σ c r σ' →
      ∃ es, σ'.trace = σ.trace ++ es ∧
        σ.session.Moves (fun q d d' => QueueSteps limits d (queuedOn es q) d') σ'.session := by
  have hs := h.represented
  refine ⟨fun hopen => ?_, fun hstep => (hstep.changes hs.sound).moves hs h.objects h.unwritten⟩
  have hwindowed := hs.windowed hopen
  exact ⟨⟨hwindowed.own, hs.indexed.own⟩,
    fun i l hl => ⟨hwindowed.lanes i l hl, hs.indexed.lanes i l hl⟩⟩

/-- A backend takes two bytes one by one: the second is credited with the first. -/
theorem window_index_merged : ∃ σ, Reachable id defaultLimits .https σ ∧
    σ.session.down.pendingFrames.map QueuedFrame.amount = [2] ∧
    σ.session.down.pendingWindows.bind (·.get 1) = some 0 ∧
    σ.session.InUse fun d => d.pendingWindows ≠ none ∧ d.Indexed := by
  let body := encode .open 1 [] ++ encode .data 1 [7, 8]
  have hplay : (play id ⟨newSession defaultLimits .https, []⟩
      [(.processUpBegin 1 body, []), (.processUpCommit 1 body, []), (.nextWrite 1, []),
        (.backendDrained 1 1, []), (.backendDrained 1 1, [])]).map (fun σ =>
        (σ.session.closed, σ.session.down.pendingFrames.map QueuedFrame.amount,
          σ.session.down.pendingWindows.bind (·.get 1))) =
      some (false, [2], some 0) := by
    decide +kernel
  obtain ⟨σ, hσ, he⟩ := Option.map_eq_some_iff.mp hplay
  simp only [Prod.mk.injEq] at he
  obtain ⟨hopen, hamounts, hentry⟩ := he
  have hr : Reachable id defaultLimits .https σ := Reachable.start.play hσ
  exact ⟨σ, hr, hamounts, hentry, (window_index hr).1 hopen⟩

end TproxyServer
