import RenogyX10.Heyu.TurnOn

set_option autoImplicit false

namespace RenogyX10.Heyu

open Checked Csck Framing Parse Proc

/-- The current connection: the frames its publisher sends, the bytes received from
it, and what `process_msg` was called with. -/
structure Link where
  stream : List Frame := []
  received : List UInt8 := []
  handed : List (List UInt8) := []
deriving DecidableEq

def Link.next (link : Link) : Event → Link
  | .connect _ stream => ⟨stream, [], []⟩
  | .recv bytes => { link with received := link.received ++ bytes }
  | .msg payload => { link with handed := link.handed ++ [payload] }
  | .child _ _ _ _ => link
  | .cast _ => link

/-- The trace is newest first. -/
def linkOf : List Event → Link
  | [] => {}
  | event :: older => (linkOf older).next event

def Client.link (h : Client) : Link := linkOf h.trace

/-- The payloads that `process_msg` has to be called with. -/
def payloads (frames : List Frame) : List (List UInt8) :=
  (frames.filter fun frame => frame.code = 0).map Frame.payload

/-- The frames that are done, those to come, and what is held of the next one. -/
structure Link.At (link : Link) (done later : List Frame) (held : List UInt8) : Prop where
  stream : link.stream = done ++ later
  received : link.received = streamOf done ++ held
  handed : link.handed = payloads done

/-- The bytes are the first of the next frame, and not all of it. -/
def PartOf (held : List UInt8) : List Frame → Prop
  | [] => held = []
  | frame :: _ => held <+: frame.bytes ∧ held.length < frame.bytes.length

/-- `process_msg` was called with the payload of each frame of this connection that
has been received completely and has code zero, in order, and with nothing else. -/
def Link.Synced (link : Link) : Prop :=
  ∃ done later held, link.At done later held ∧ PartOf held later

/-- A frame with code zero has been received completely, and `process_msg` was called
for those before it only. -/
def Link.Uncopied (link : Link) : Prop :=
  ∃ done frame later, link.At done (frame :: later) frame.bytes ∧ frame.code = 0

/-- The pass cannot allocate the copy of a payload. -/
structure LoopIo.CopyFails (io : LoopIo) : Prop where
  receives : io.poll.receives = true
  created : io.msg.created = false

/-- These bytes are the next ones that the publisher sends on the connection. -/
def Link.Sends (link : Link) : Option (List UInt8) → Prop
  | some bytes => link.received ++ bytes <+: streamOf link.stream
  | none => True

/-- What is received is what the publisher sends. -/
def PublisherOk (d : Daemon) : Input → Prop
  | .loop io => d.sys.host.link.Sends io.recv
  | _ => True

instance (link : Link) : ∀ recv, Decidable (link.Sends recv)
  | some _ => inferInstanceAs (Decidable (_ <+: _))
  | none => .isTrue trivial

instance (d : Daemon) : ∀ input, Decidable (PublisherOk d input)
  | .loop io => inferInstanceAs (Decidable (d.sys.host.link.Sends io.recv))
  | .start _ | .report _ | .finish _ => .isTrue trivial

/-- A connection starts where the receiver waits for a header. -/
def BetweenFrames (d : Daemon) : Input → Prop
  | .start _ => d.sys.info.readed = 0 ∧ d.sys.info.toRead = 4
  | _ => True

instance (d : Daemon) : ∀ input, Decidable (BetweenFrames d input)
  | .start _ => inferInstanceAs (Decidable (_ ∧ _))
  | .loop _ | .report _ | .finish _ => .isTrue trivial

/-- Every frame of the current connection is handed over as soon as it is complete. Only
where its payload cannot be copied it is not, and the program is about to end then. -/
def InSync (inputs : List Input) (d : Daemon) : Prop :=
  d.sys.host.link.Synced ∨
    (∃ io, .loop io ∈ inputs ∧ io.CopyFails) ∧ d.sys.host.link.Uncopied ∧
      d.ctl ≠ .connect ∧ d.ctl ≠ .loop

/-- The receiver holds what has been received of the next frame. -/
def InStep (c : Sys) : Prop :=
  ∃ done later held, c.host.link.At done later held ∧ PartOf held later ∧ Awaits held later ∧
    Holding c held

/-- Behind an error; `failed` says whether a copy could not be made. -/
structure Left (failed : Prop) (c : Sys) : Prop where
  buffer : c.ins.data.length = insSize
  link : c.host.link.Synced ∨ failed ∧ c.host.link.Uncopied

variable {h : Client} {c : Sys} {done later rest : List Frame} {frame : Frame}
  {held bytes : List UInt8} {failed : Prop}

theorem streamOf_snoc (front : List Frame) (frame : Frame) :
    streamOf (front ++ [frame]) = streamOf front ++ frame.bytes := by
  rw [streamOf_append]
  simp only [streamOf, List.map_cons, List.map_nil, List.flatten_cons, List.flatten_nil,
    List.append_nil]

theorem payloads_snoc (front : List Frame) (frame : Frame) :
    payloads (front ++ [frame]) =
      payloads front ++ if frame.code = 0 then [frame.payload] else [] := by
  by_cases zero : frame.code = 0 <;> simp [payloads, zero]

theorem PartOf.nil (frames : List Frame) : PartOf [] frames := by
  cases frames with
  | nil => rfl
  | cons frame rest =>
      refine ⟨List.nil_prefix, ?_⟩
      have positive := frame.nonempty
      rw [frame.bytes_length, List.length_nil]
      omega

theorem InStep.left (inStep : InStep c) : Left failed c := by
  obtain ⟨done, later, held, place, part, _, holding⟩ := inStep
  exact ⟨holding.buffer, .inl ⟨done, later, held, place, part⟩⟩

theorem InStep.withHost (inStep : InStep c) (same : h.link = c.host.link) :
    InStep { c with host := h } := by
  obtain ⟨done, later, held, place, part, awaits, holding⟩ := inStep
  rw [← same] at place
  exact ⟨done, later, held, place, part, awaits, holding.withHost h⟩

theorem InStep.synced (inStep : InStep c) : c.host.link.Synced := by
  obtain ⟨done, later, held, place, part, _⟩ := inStep
  exact ⟨done, later, held, place, part⟩

theorem Left.synced (left : Left failed c) (copied : ¬ failed) : c.host.link.Synced := by
  rcases left.link with synced | ⟨fails, _⟩
  · exact synced
  · exact absurd fails copied

theorem Left.mono {other : Prop} (left : Left failed c) (weaker : failed → other) :
    Left other c :=
  ⟨left.buffer, left.link.imp_right fun ⟨fails, uncopied⟩ => ⟨weaker fails, uncopied⟩⟩

/-- A new connection, on which the receiver waits for a header. -/
theorem InStep.start (stream : List Frame) (host : h.link = ⟨stream, [], []⟩)
    (buffer : c.ins.data.length = insSize) (readed : c.info.readed = 0)
    (toRead : c.info.toRead = 4) : InStep { c with host := h } := by
  have idle : Holding { c with host := h } [] := .idle buffer readed toRead
  have awaits : Awaits [] stream := Layout.pending_nil (framed_all stream)
  have place : h.link.At [] stream [] := by
    rw [host]
    exact ⟨rfl, rfl, rfl⟩
  exact ⟨[], stream, [], place, .nil stream, awaits, idle⟩

theorem Link.At.recv (place : h.link.At done later held) (bytes : List UInt8) :
    (h.emit (.recv bytes)).link.At done later (held ++ bytes) := by
  refine ⟨place.stream, ?_, place.handed⟩
  show h.link.received ++ bytes = _
  rw [place.received, List.append_assoc]

theorem Link.At.complete {link next : Link} (place : link.At done (frame :: rest) frame.bytes)
    (stream : next.stream = link.stream) (received : next.received = link.received)
    (handed : next.handed = payloads (done ++ [frame])) : next.At (done ++ [frame]) rest [] := by
  refine ⟨?_, ?_, handed⟩
  · rw [stream, place.stream, List.append_assoc, List.singleton_append]
  · rw [received, place.received, streamOf_snoc, List.append_nil]

theorem processVolts_link {io : MsgIo} {link : Link} (tenths : UInt16) (same : h.link = link) :
    (processVolts io tenths h).Meets (fun t => t.link = link) (fun t => t.link = link)
      fun t => t.link = link := by
  apply processVolts_meets same same
  · exact fun _ => same
  · intro _ _
    exact runCharger_meets (fun _ _ => same) (fun _ => same) fun _ => same

theorem processMsg_link (lib : ParseLib) {io : MsgIo} {s : ParseT} {link : Link}
    (noted : (h.emit (.msg s.rem)).link = link) :
    (processMsg lib io s h).Meets (fun t => t.link = link) (fun t => t.link = link)
      fun t => t.link = link :=
  processMsg_meets lib noted noted fun tenths _ => processVolts_link tenths noted

/-- A complete frame is handed over, unless there is no memory for its copy. -/
theorem handle_synced (lib : ParseLib) {io : MsgIo}
    (place : h.link.At done (frame :: rest) frame.bytes) :
    (handle lib (deliver lib io) frame h).Meets
      (fun t => t.link.At (done ++ [frame]) rest [])
      (fun t => t.link.Synced ∨ io.created = false ∧ t.link.Uncopied)
      fun t => t.link.Synced := by
  unfold handle
  apply meets_when
  · intro zero
    rw [lib.createFromSlice_eq]
    have handed : (h.emit (.msg frame.payload)).link.At (done ++ [frame]) rest [] := by
      refine place.complete rfl rfl ?_
      rw [payloads_snoc, if_pos zero, ← place.handed]
      rfl
    have synced : (h.emit (.msg frame.payload)).link.Synced :=
      ⟨done ++ [frame], rest, [], handed, .nil rest⟩
    unfold deliver
    cases created : io.created with
    | false => exact .inr ⟨rfl, done, frame, rest, place, zero⟩
    | true =>
        apply meets_mono (processMsg_link lib rfl)
        · intro t same
          rw [same]
          exact handed
        · intro t same
          rw [same]
          exact .inl synced
        · intro t same
          rw [same]
          exact synced
  · intro other
    apply place.complete rfl rfl
    rw [payloads_snoc, if_neg other, List.append_nil]
    exact place.handed

theorem inBounds_of_part (part : PartOf held later) (awaits : Awaits held later)
    (holding : Holding c held) : InBounds c := by
  apply holding.inBounds
  cases later with
  | nil =>
      obtain rfl : held = [] := part
      exact Nat.zero_le _
  | cons frame rest =>
      exact Nat.le_of_lt (Layout.length_lt_target frame.framed awaits.1 awaits.2)

theorem InStep.buffer (inStep : InStep c) : c.ins.data.length = insSize := by
  obtain ⟨_, _, _, _, _, _, holding⟩ := inStep
  exact holding.buffer

theorem InStep.inBounds (inStep : InStep c) : InBounds c := by
  obtain ⟨_, _, _, _, part, awaits, holding⟩ := inStep
  exact inBounds_of_part part awaits holding

theorem InStep.ended (inStep : InStep c) {recv : Option (List UInt8)}
    (nothing : recv.getD [] = []) : InStep (noteRecv recv c) := by
  obtain ⟨done, later, held, place, part, awaits, holding⟩ := inStep
  have noted := place.recv (recv.getD [])
  rw [nothing, List.append_nil] at noted
  refine ⟨done, later, held, ?_, part, awaits, holding.withHost _⟩
  show (c.host.emit (.recv (recv.getD []))).link.At done later held
  rw [nothing]
  exact noted

theorem receive_inStep (lib : ParseLib) {io : MsgIo} {more : List UInt8}
    (place : c.host.link.At done (frame :: rest) held) (awaits : Awaits held (frame :: rest))
    (holding : Holding c held) (asked : Asked c bytes)
    (stream : held ++ bytes ++ more = streamOf (frame :: rest) ++ []) :
    (csckCanRecv lib io (some bytes) c).Meets InStep (Left (io.created = false))
      fun t => t.host.link.Synced := by
  have noted : (noteRecv (some bytes) c).host.link.At done (frame :: rest) (held ++ bytes) :=
    place.recv bytes
  have holds : Holding (noteRecv (some bytes) c) held := holding.withHost _
  unfold csckCanRecv
  rw [modify_bind]
  unfold processCsckIn
  rcases holds.step lib (deliver lib io) awaits asked stream with
    ⟨next, ran, buffer, whole, others, _⟩ | ⟨next, ran, host, after, inside⟩
  · rw [ran]
    rw [whole] at noted
    apply meets_finish
    apply meets_mono (handle_synced lib noted)
    · intro t next
      exact ⟨done ++ [frame], rest, [], next, .nil rest, others, .idle buffer rfl rfl⟩
    · exact fun t ended => ⟨buffer, ended⟩
    · exact fun t synced => synced
  · rw [ran]
    rw [← host] at noted
    exact ⟨done, frame :: rest, held ++ bytes, noted, inside, inside, after⟩

/-- What arrives on this connection keeps the receiver in step with it. -/
theorem csckCanRecv_inStep (lib : ParseLib) {io : MsgIo} {recv : Option (List UInt8)}
    (inStep : InStep c) (fits : RecvFits c recv) (sent : c.host.link.Sends recv) :
    (csckCanRecv lib io recv c).Meets InStep (Left (io.created = false))
      fun t => t.host.link.Synced := by
  by_cases nothing : recv.getD [] = []
  · have same := inStep.ended nothing
    obtain ⟨reason, failed⟩ :=
      same.inBounds.processCsckIn_ended lib (deliver lib io) nothing
    unfold csckCanRecv
    rw [modify_bind]
    unfold processCsckIn
    rw [failed]
    exact same.left
  · match recv with
    | none => exact absurd rfl nothing
    | some bytes =>
        obtain ⟨done, later, held, place, part, awaits, holding⟩ := inStep
        obtain ⟨more, stream⟩ := sent
        rw [place.stream, place.received, streamOf_append, List.append_assoc, List.append_assoc]
          at stream
        have onward : held ++ (bytes ++ more) = streamOf later := List.append_cancel_left stream
        cases later with
        | nil =>
            have total := congrArg List.length onward
            have some_byte : 0 < bytes.length := List.length_pos_iff.mpr nothing
            simp only [List.length_append, streamOf, List.map_nil, List.flatten_nil,
              List.length_nil] at total
            omega
        | cons frame rest =>
            have whole : held ++ bytes ++ more = streamOf (frame :: rest) ++ [] := by
              rw [List.append_nil, List.append_assoc]
              exact onward
            exact receive_inStep lib place awaits holding ⟨nothing, fits⟩ whole

theorem mainLoop_inStep (lib : ParseLib) {io : LoopIo} (inStep : InStep c)
    (fits : RecvFits c io.recv) (sent : c.host.link.Sends io.recv) :
    (mainLoop lib io c).Meets InStep (Left io.CopyFails) fun t => t.host.link.Synced := by
  apply mainLoop_meets lib
    (fun t => InStep t ∧ RecvFits t io.recv ∧ t.host.link = c.host.link) InStep
  · exact inStep.left
  · intro _
    apply meets_focus
    have cast (time : Int) : (c.host.emit (.cast time)).link = c.host.link := rfl
    apply pollTimeout_meets
    · exact fun _ => ⟨inStep, fits, rfl⟩
    · exact fun _ => ⟨⟨inStep.withHost (cast _), fits, cast _⟩, (inStep.withHost (cast _)).left⟩
    · exact fun _ _ => (inStep.withHost (cast _)).synced
  · exact fun t ⟨inStep, _, _⟩ => ⟨inStep, inStep.left, inStep⟩
  · intro t ⟨inStep, _, _⟩ _
    have installed (config : HeyuInfo) :
        InStep { t with host := t.host.install config } := inStep.withHost rfl
    apply meets_focus
    apply reloadConfig_meets
    · exact inStep.left
    · exact inStep.left
    · exact fun config => ⟨(installed config).left, (installed config).left⟩
    · exact fun _ => inStep.synced
  · intro t ⟨inStep, fits, same⟩ receives
    rw [← same] at sent
    apply meets_mono (csckCanRecv_inStep lib inStep fits sent)
    · exact fun _ inStep => inStep
    · exact fun _ left => left.mono fun created => ⟨receives, created⟩
    · exact fun _ synced => synced
  · intro t inStep
    apply meets_focus
    apply checkOffTime_meets
    · exact inStep
    · exact inStep.left
    · intro _ _
      have off (result : ChildResult) :
          InStep { t with host := (t.host.setState .lookingForLow).child .off result } :=
        inStep.withHost rfl
      exact runCharger_meets (fun _ _ => off _) (fun _ => (off _).left) fun _ => (off _).synced

/-- What holds before every step. -/
structure Following (failed : Prop) (d : Daemon) : Prop where
  link : d.sys.host.link.Synced ∨
    failed ∧ d.sys.host.link.Uncopied ∧ d.ctl ≠ .connect ∧ d.ctl ≠ .loop
  buffer : d.ctl = .connect → d.sys.ins.data.length = insSize
  inStep : d.ctl = .loop → InStep d.sys

/-- In a state of its own the program neither connects nor receives. -/
theorem Following.of_link (link : c.host.link.Synced ∨ failed ∧ c.host.link.Uncopied) {ctl : Ctl}
    (connecting : ctl ≠ .connect) (looping : ctl ≠ .loop) : Following failed ⟨c, ctl⟩ :=
  ⟨link.imp_right fun ⟨fails, uncopied⟩ => ⟨fails, uncopied, connecting, looping⟩,
    fun same => absurd same connecting, fun same => absurd same looping⟩

theorem Following.of_inStep (inStep : InStep c) (ctl : Ctl) : Following failed ⟨c, ctl⟩ :=
  ⟨.inl inStep.synced, fun _ => inStep.buffer, fun _ => inStep⟩

theorem Following.stopped {d : Daemon} (following : Following failed d)
    (same : h.link = d.sys.host.link) : Following failed ⟨{ d.sys with host := h }, .stopped⟩ := by
  apply Following.of_link
  · show h.link.Synced ∨ failed ∧ h.link.Uncopied
    rw [same]
    exact following.link.imp_right fun ⟨fails, uncopied, _⟩ => ⟨fails, uncopied⟩
  · nofun
  · nofun

theorem step_following (lib : ParseLib) (d : Daemon) (input : Input)
    (allowed : ((KernelOk d input ∧ PublisherOk d input) ∧ BetweenFrames d input) ∧
      ∀ io, input = .loop io → io.CopyFails → failed)
    (following : Following failed d) : Following failed (d.step lib input) := by
  obtain ⟨⟨⟨kernel, publisher⟩, between⟩, fails⟩ := allowed
  apply Daemon.step_rule lib following
  · rintro io rfl connecting
    have buffer := following.buffer connecting
    apply meets_focus
    apply start_meets
    · exact fun _ => following.stopped rfl
    · exact fun _ => .of_inStep (.start io.stream rfl buffer between.1 between.2) _
  · rintro io rfl looping
    have inStep := following.inStep looping
    apply meets_mono (mainLoop_inStep lib inStep kernel publisher)
    · exact fun t inStep => ⟨.of_inStep inStep _, .of_inStep inStep _⟩
    · intro t left
      constructor
      · -- a pass that reloads receives nothing
        intro hups
        have copied : ¬ io.CopyFails := by
          intro fails
          have quiet := PollIo.receives_of_hups hups
          rw [fails.receives] at quiet
          cases quiet
        exact ⟨.inl (left.synced copied), fun _ => left.buffer, nofun⟩
      · exact .of_link (left.mono (fails io rfl)).link nofun nofun
    · exact fun t synced => .of_link (.inl synced) nofun nofun
  · rintro logged rfl reporting
    cases logged with
    | false => exact following.stopped rfl
    | true =>
        apply Following.of_link
        · exact following.link.imp_right fun ⟨fails, uncopied, _⟩ => ⟨fails, uncopied⟩
        · nofun
        · nofun
  · rintro io rfl finishing
    apply meets_focus
    apply turnOffAtExit_meets
    · exact fun _ => following.stopped rfl
    · intro _
      have off (result : ChildResult) : Following failed
          ⟨{ d.sys with host := d.sys.host.child .off result }, .stopped⟩ := following.stopped rfl
      exact runCharger_meets (fun _ _ => off _) (fun _ => off _) fun _ => off _

/-- In every run in which every connection starts between two frames, the receiver
follows the frames of the current connection. -/
theorem connection_synced (lib : ParseLib) (config : HeyuInfo) (inputs : List Input)
    (kernel : Runs.Admits (Daemon.step lib) KernelOk (Daemon.initial config) inputs)
    (publisher : Runs.Admits (Daemon.step lib) PublisherOk (Daemon.initial config) inputs)
    (between : Runs.Admits (Daemon.step lib) BetweenFrames (Daemon.initial config) inputs) :
    InSync inputs ((Daemon.initial config).run lib inputs) := by
  have start : Following (∃ io, .loop io ∈ inputs ∧ io.CopyFails) (Daemon.initial config) := by
    refine ⟨.inl ⟨[], [], [], ⟨rfl, rfl, rfl⟩, rfl⟩, ?_, nofun⟩
    intro _
    exact List.length_replicate
  have known : Runs.Admits (Daemon.step lib)
      (fun _ input => ∀ io, input = .loop io → io.CopyFails →
        ∃ io, .loop io ∈ inputs ∧ io.CopyFails)
      (Daemon.initial config) inputs := by
    apply Runs.admits_of_forall
    rintro input member io rfl fails
    exact ⟨io, member, fails⟩
  exact (Runs.exec_keeps (step_following lib) (((kernel.and publisher).and between).and known)
    start).link

/-- The configuration is loaded again between two frames, and the new connection sends a frame
that is received in two pieces. -/
def reloaded : List Input :=
  firstFrame 0 lowFrame [] ++
    [.loop (quietPass 1000 (.ready false true false)), .start (connected [lowFrame]),
      .loop (receivePass 2000 (lowFrame.bytes.take 4)), .loop (receivePass 2000 lowFrame.payload)]

theorem connection_synced_reloaded :
    InSync reloaded ((Daemon.initial battery).run reference reloaded) ∧
      ((Daemon.initial battery).run reference reloaded).sys.host.link =
        ⟨[lowFrame], lowFrame.bytes, [lowFrame.payload]⟩ := by
  have promised :
      Runs.Admits (Daemon.step reference) KernelOk (Daemon.initial battery) reloaded ∧
        Runs.Admits (Daemon.step reference) PublisherOk (Daemon.initial battery) reloaded ∧
        Runs.Admits (Daemon.step reference) BetweenFrames (Daemon.initial battery) reloaded ∧
        ((Daemon.initial battery).run reference reloaded).sys.host.link =
          ⟨[lowFrame], lowFrame.bytes, [lowFrame.payload]⟩ := by
    decide +kernel
  obtain ⟨kernel, publisher, between, link⟩ := promised
  exact ⟨connection_synced reference battery reloaded kernel publisher between, link⟩

/-- What the receiver takes the first twelve bytes of a frame for, behind a header. -/
def misread : Frame := ⟨0, lowFrame.bytes.take 12, by decide, by decide⟩

/-- The configuration is loaded again behind the header of a frame, and the new
connection sends the frame once more. -/
def midFrame : List Input :=
  [.start (connected [lowFrame]), .loop (receivePass 0 (lowFrame.bytes.take 4)),
    .loop (quietPass 1000 (.ready false true false)), .start (connected [lowFrame]),
    .loop (receivePass 2000 misread.payload)]

/-- No frame of the new connection is complete yet. -/
theorem misread_not_at {done later : List Frame} {held : List UInt8} :
    ¬ Link.At ⟨[lowFrame], misread.payload, [misread.payload]⟩ done later held := by
  intro place
  cases done with
  | nil => cases place.handed
  | cons frame rest =>
      obtain ⟨rfl, _⟩ := List.cons.inj place.stream
      have received : misread.payload = streamOf (lowFrame :: rest) ++ held := place.received
      have total := congrArg List.length received
      have twelve : misread.payload.length = 12 := rfl
      have sixteen : lowFrame.bytes.length = 16 := rfl
      simp only [streamOf, List.map_cons, List.flatten_cons, List.length_append] at total
      omega

theorem connection_not_synced_midFrame :
    Runs.Admits (Daemon.step reference) KernelOk (Daemon.initial battery) midFrame ∧
      Runs.Admits (Daemon.step reference) PublisherOk (Daemon.initial battery) midFrame ∧
      ¬ InSync midFrame ((Daemon.initial battery).run reference midFrame) := by
  have promised :
      Runs.Admits (Daemon.step reference) KernelOk (Daemon.initial battery) midFrame ∧
        Runs.Admits (Daemon.step reference) PublisherOk (Daemon.initial battery) midFrame ∧
        ((Daemon.initial battery).run reference midFrame).sys.host.link =
          ⟨[lowFrame], misread.payload, [misread.payload]⟩ := by
    decide +kernel
  obtain ⟨kernel, publisher, link⟩ := promised
  refine ⟨kernel, publisher, ?_⟩
  rintro (⟨done, later, held, place, _⟩ | ⟨_, ⟨done, frame, later, place, _⟩, _⟩)
  · rw [link] at place
    exact misread_not_at place
  · rw [link] at place
    exact misread_not_at place

end RenogyX10.Heyu
