import MiniHF.Host.ConsoleProof
import MiniHF.Link.Link

/-!
# What the device prints

Every text of the engine begins with its name and holds no zero byte. So a text that
gets in front of a frame makes one piece with it, and that piece is no packet.
-/

namespace MiniHF.Link

open Host Device Interrupts Interrupts.Code

/-- A text of the engine. -/
def EngineText (text : String) : Prop := Clean text ∧ ∃ y, text.toList = 't' :: 'x' :: y

/-- Whatever text is among an output is one of the engine. -/
def EngineTexts (out : List Output) : Prop := ∀ text, .printk text ∈ out → EngineText text

theorem engineText_append {s t : String} (hs : EngineText s) (ht : Clean t) :
    EngineText (s ++ t) := by
  obtain ⟨hclean, y, hy⟩ := hs
  exact ⟨clean_append hclean ht, y ++ t.toList, by rw [String.toList_append, hy]; rfl⟩

theorem clean_flag (b : Bool) : Clean (fmtFlag b) := by
  cases b <;> decide +kernel

theorem clean_fixed2 (q : Rat) : Clean (fmtFixed2 q) := by
  have hdot : Clean "." := by decide +kernel
  have hsign : Clean (if q.num < 0 then "-" else "") := by
    split <;> decide +kernel
  have hpad : ∀ n : Nat, Clean (if n % 100 < 10 then "0" else "") := by
    intro n
    split <;> decide +kernel
  unfold fmtFixed2
  exact clean_append (clean_append (clean_append (clean_append hsign (clean_nat _)) hdot) (hpad _))
    (clean_nat _)

theorem engineText_started (seq : TxSequence) : EngineText (startedText seq) := by
  have hname : EngineText "tx_engine: started, base_freq=" :=
    ⟨by decide +kernel, "_engine: started, base_freq=".toList, by decide +kernel⟩
  unfold startedText
  refine engineText_append (engineText_append (engineText_append (engineText_append
    (engineText_append (engineText_append hname (clean_nat _)) ?_) (clean_nat _)) ?_)
    (clean_flag _)) ?_ <;> decide +kernel

theorem engineText_symbol (seq : TxSequence) : EngineText (symbolText seq) := by
  have hname : EngineText "tx_engine: symbol " :=
    ⟨by decide +kernel, "_engine: symbol ".toList, by decide +kernel⟩
  unfold symbolText
  refine engineText_append (engineText_append (engineText_append (engineText_append
    (engineText_append (engineText_append (engineText_append (engineText_append
    (engineText_append (engineText_append hname (clean_nat _)) ?_) (clean_nat _)) ?_)
    (clean_flag _)) ?_) (clean_fixed2 _)) ?_) (clean_nat _)) ?_ <;> decide +kernel

/-! ## One run of the engine -/

/-- From `d` to `d'` the device puts out texts of the engine, and nothing else. -/
def Prints (d d' : Device) : Prop :=
  ∃ texts : List String, d'.out = d.out ++ texts.map .printk ∧ ∀ text ∈ texts, EngineText text

theorem prints_refl (d : Device) : Prints d d := ⟨[], (List.append_nil _).symm, by simp⟩

theorem prints_trans {d d' d'' : Device} (h : Prints d d') (h' : Prints d' d'') :
    Prints d d'' := by
  obtain ⟨texts, hout, htexts⟩ := h
  obtain ⟨texts', hout', htexts'⟩ := h'
  refine ⟨texts ++ texts', by rw [hout', hout, List.map_append, List.append_assoc], ?_⟩
  intro text ht
  rcases List.mem_append.mp ht with ht | ht
  · exact htexts text ht
  · exact htexts' text ht

/-- A statement that leaves the output alone. -/
theorem prints_of_out {d d' : Device} (h : d'.out = d.out) : Prints d d' :=
  ⟨[], by rw [h]; exact (List.append_nil _).symm, by simp⟩

theorem prints_printk {text : String} (h : EngineText text) (d : Device) :
    Prints d (d.printk text) :=
  ⟨[text], rfl, fun _ ht => by rw [List.mem_singleton.mp ht]; exact h⟩

theorem txOff_prints : txOff.Obeys Prints :=
  ⟨prints_printk ⟨by decide +kernel, "_engine: TX off\n".toList, by decide +kernel⟩,
    fun d => prints_of_out (d.out_si5351aEnableOutput _ _),
    fun d => prints_of_out d.out_regulatorDisable, trivial⟩

theorem applySymbol_prints (sym : TxSymbol) : (applySymbol sym).Obeys Prints := by
  refine ⟨fun d => prints_of_out rfl, ?_⟩
  split
  · exact ⟨fun d => prints_of_out d.out_regulatorEnable, trivial⟩
  · exact txOff_prints

theorem txNextSymbol_prints (seq : TxSequence) : (txNextSymbol seq).Obeys Prints :=
  ⟨prints_printk (engineText_symbol seq), obeys_andThen (applySymbol_prints _)
    ⟨fun _ => prints_of_out rfl, trivial⟩⟩

theorem txWorkHandler_prints : txWorkHandler.Obeys Prints := by
  intro d
  dsimp only
  split
  · exact ⟨fun d => prints_of_out rfl, trivial⟩
  · refine ⟨fun d => prints_of_out rfl, ?_⟩
    split
    · split
      · exact ⟨prints_printk ⟨by decide +kernel, "_engine: sequence repeating\n".toList,
          by decide +kernel⟩, fun d => prints_of_out rfl, txNextSymbol_prints _⟩
      · exact ⟨prints_printk ⟨by decide +kernel, "_engine: sequence complete\n".toList,
          by decide +kernel⟩, obeys_andThen txOff_prints ⟨fun d => prints_of_out rfl,
          fun d => prints_of_out rfl, trivial⟩⟩
    · exact txNextSymbol_prints _

/-- The engine prints its texts, and sends nothing. -/
theorem deviceStep_prints (crc16Ccitt : UInt16 → List UInt8 → UInt16) (d : Device)
    {e : DeviceEvent} (he : ∀ data, e ≠ .receive data) :
    Prints d (deviceStep crc16Ccitt d e) := by
  cases e with
  | receive data => exact absurd rfl (he data)
  | expire =>
      refine prints_of_out ?_
      show (txTimerExpiry d).out = d.out
      unfold txTimerExpiry
      split <;> rfl
  | work =>
      show Prints d (atomicStep engine d (.op .work))
      rw [atomicStep]
      split
      · exact prints_trans (prints_of_out rfl)
          (exec_obeys prints_refl prints_trans txWorkHandler_prints { d with txWork := false })
      · exact prints_refl d

/-! ## The output of a step -/

/-- The packets of an output. -/
def packetsIn (out : List Output) : List Packet :=
  out.filterMap fun
    | .packet p => some p
    | .printk _ => none

theorem packetsIn_cons_packet (p : Packet) (out : List Output) :
    packetsIn (.packet p :: out) = p :: packetsIn out := rfl

/-- A packet is a debug message or a reply. -/
theorem reply_of_packet {p : Packet} {out : List Output} (h : p ∈ packetsIn out) :
    p.type = debugMsgCmd ∨ p ∈ replies out := by
  obtain ⟨o, ho, hp⟩ := List.mem_filterMap.mp h
  cases o with
  | printk text => cases hp
  | packet q =>
      obtain rfl : q = p := Option.some.inj hp
      by_cases hdebug : q.type = 0xFC
      · exact Or.inl hdebug
      · exact Or.inr (List.mem_filterMap.mpr ⟨_, ho, if_neg hdebug⟩)

theorem replies_of_texts (texts : List String) : replies (texts.map .printk) = [] := by
  rw [replies, List.filterMap_map, List.filterMap_eq_nil_iff]
  intro text _
  rfl

theorem Prints.since {d d' : Device} (h : Prints d d') :
    EngineTexts (outputSince d d') ∧ Host.Short (outputSince d d')
      ∧ replies (outputSince d d') = [] := by
  obtain ⟨texts, hout, htexts⟩ := h
  rw [outputSince, hout, List.drop_left]
  refine ⟨?_, ?_, replies_of_texts texts⟩
  · intro text ht
    obtain ⟨text', ht', heq⟩ := List.mem_map.mp ht
    rw [← Output.printk.inj heq]
    exact htexts text' ht'
  · intro p hp
    obtain ⟨_, _, heq⟩ := List.mem_map.mp hp
    cases heq

/-- A debug message is one packet. -/
theorem report_since (d : Device) (message : String) :
    outputSince d (d.sendDebugMessage message) = [.packet (debugPacket message)] := by
  rw [outputSince, out_sendDebugMessage, List.drop_left]

theorem outputSince_self (d : Device) : outputSince d d = [] := by
  rw [outputSince, List.drop_length]

theorem preamble_texts (p : Packet) (d : Device) : EngineTexts (preamble p d) := by
  have hnone : EngineTexts [] := fun text ht => by cases ht
  rw [preamble]
  split
  · split
    · rename_i seq _
      intro text ht
      rcases List.mem_append.mp ht with ht | ht
      · have hstop : text = "tx_engine: stopping\n" ∨ text = "tx_engine: TX off\n" := by
          simpa [stopTexts, offText] using ht
        rcases hstop with rfl | rfl
        · exact ⟨by decide +kernel, "_engine: stopping\n".toList, by decide +kernel⟩
        · exact ⟨by decide +kernel, "_engine: TX off\n".toList, by decide +kernel⟩
      · rw [Output.printk.inj (List.mem_singleton.mp ht)]
        exact engineText_started seq
    · split
      · exact hnone
      · intro text ht
        cases List.mem_singleton.mp ht
  · exact hnone

/-- **A frame that is handled** puts out texts of the engine and short packets; and if it holds a
request with a reply, exactly one packet that is no debug message, which answers it. -/
theorem handle_since (crc16Ccitt : UInt16 → List UInt8 → UInt16) {data : List UInt8} {p : Packet}
    (hp : checkPacket crc16Ccitt data = some p) (hreset : p.type ≠ 0xFD) (d : Device) :
    EngineTexts (outputSince d (d.parseDispatchPacket crc16Ccitt data))
      ∧ Host.Short (outputSince d (d.parseDispatchPacket crc16Ccitt data))
      ∧ (replies (outputSince d (d.parseDispatchPacket crc16Ccitt data)) = []
        ∨ ∃ reply, Answers p reply ∧ Registered p
          ∧ replies (outputSince d (d.parseDispatchPacket crc16Ccitt data)) = [reply]) := by
  have hdispatch : d.parseDispatchPacket crc16Ccitt data = d.dispatch p := by
    rw [parseDispatchPacket, hp]
  rw [hdispatch]
  by_cases hreg : Registered p
  · obtain ⟨reply, hans, hout⟩ := dispatch_out hreg hreset d
    rw [outputSince, hout, List.drop_left]
    refine ⟨?_, short_output hans.short d, Or.inr ⟨reply, hans, hreg, replies_dispatch hreg hans d⟩⟩
    intro text ht
    rcases List.mem_append.mp ht with ht | ht
    · exact preamble_texts p d text ht
    · cases List.mem_singleton.mp ht
  · rw [dispatch_unregistered hreg, outputSince_self]
    refine ⟨?_, ?_, Or.inl rfl⟩
    · intro text ht
      cases ht
    · intro q hq
      cases hq

end MiniHF.Link
