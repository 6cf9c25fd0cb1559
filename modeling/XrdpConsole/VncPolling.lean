import Mathlib.Logic.Relation
import XrdpConsole.VncAgreement

/-!
# Polls of the VNC socket

However the socket cuts the stream, polls bring the bytes the parser waits for to
`lib_data_in` in one piece and leave the rest of the stream alone.
-/

namespace XrdpConsole.VncPolling

open XrdpConsole.Library
open XrdpConsole.Library.Program
open XrdpConsole.VncState
open XrdpConsole.VncIncremental
open XrdpConsole.VncModule
open XrdpConsole.VncAgreement

set_option autoImplicit false

/-! ## Polls -/

section Polls

variable (answers : ServerAnswers)

/-- A poll that finds the parser in the middle of an update and succeeds. -/
def Polled (before after : Vnc) : Prop :=
  before.framebufferParseState ≠ .waitMessageType ∧
    Returns (transCheckWaitObjs answers) before () after

def withInput (v : Vnc) (inData : List Byte) (sock : List (List Byte)) : Vnc :=
  { v with
    trans :=
      { v.trans with
        inData := inData
        sock := sock } }

variable {answers} (sending : answers.transSendWaiting = true)

include sending

theorem poll_dropped {v : Vnc} {rest : List (List Byte)} (up : v.trans.up = true)
    (nothing : v.trans.sock = [] :: rest) :
    Returns (transCheckWaitObjs answers) v () (withSock v rest) := by
  simp [transCheckWaitObjs, returns_bind, up, nothing, transReadable, transCanRecv, dropPiece,
    onlyIf, sending, withSock]

theorem poll_readable {v after : Vnc} (up : v.trans.up = true) (some : v.trans.sock.head? ≠ some [])
    (received : Returns (transReceive answers) v () after) :
    Returns (transCheckWaitObjs answers) v () after := by
  have readable : transCanRecv v.trans.sock = true := by simpa [transCanRecv] using some
  simp [transCheckWaitObjs, returns_bind, up, transReadable, readable, received, onlyIf, sending]

omit sending in
theorem receive_piece {v : Vnc} (fits : v.trans.headerSize ≤ v.trans.inSize)
    (small : v.trans.inSize < 2 ^ 32) (missing : v.trans.inData.length < v.trans.headerSize)
    (connected : v.trans.sock ≠ []) {piece : List Byte} {sock : List (List Byte)}
    (taken : takeChunk (v.trans.headerSize - v.trans.inData.length) v.trans.sock = (piece, sock))
    {after : Vnc}
    (rest : Returns (onlyIf ((v.trans.inData ++ piece).length = v.trans.headerSize)
      (always (libDataIn answers) clearInData)) (withInput v (v.trans.inData ++ piece) sock) ()
      after) : Returns (transReceive answers) v () after := by
  have toRead : (v.trans.headerSize + 2 ^ 32 - v.trans.inData.length) % 2 ^ 32 =
      v.trans.headerSize - v.trans.inData.length := by omega
  unfold transReceive
  simp only [returns_bind, returns_read]
  refine ⟨_, _, ⟨rfl, rfl⟩, ?_⟩
  rw [toRead, if_neg (not_lt.mpr fits)]
  simp only [returns_bind, returns_read]
  refine ⟨(), withInput v (v.trans.inData ++ piece) sock, ?_, _, _, ⟨rfl, rfl⟩, rest⟩
  rw [only_if_true (by omega)]
  unfold transRecv
  simp only [returns_bind, returns_read]
  refine ⟨_, _, ⟨rfl, rfl⟩, ?_⟩
  rw [if_neg connected, taken]
  rfl

/-- However the socket cuts them, the bytes waited for reach `lib_data_in` in one
piece, and no byte beyond them is taken. -/
theorem polls_deliver {v : Vnc} {need rest : List Byte}
    (busy : v.framebufferParseState ≠ .waitMessageType) (up : v.trans.up = true)
    (fits : v.trans.headerSize ≤ v.trans.inSize) (small : v.trans.inSize < 2 ^ 32)
    (missing : v.trans.inData.length + need.length = v.trans.headerSize) (some : 0 < need.length)
    (content : v.trans.sock.flatten = need ++ rest) :
    ∃ sock, sock.flatten = rest ∧
      ∀ after, Returns (libDataIn answers) (withInput v (v.trans.inData ++ need) sock) () after →
        Relation.ReflTransGen (Polled answers) v (clearInData after) := by
  induction socket : v.trans.sock generalizing v need with
  | nil =>
      rw [socket, List.flatten_nil] at content
      rw [(List.append_eq_nil_iff.mp content.symm).1] at some
      exact absurd some (by decide)
  | cons chunk later ih =>
      rw [socket, List.flatten_cons] at content
      have connected : v.trans.sock ≠ [] := by rw [socket]; exact List.cons_ne_nil _ _
      have toRead : v.trans.headerSize - v.trans.inData.length = need.length := by omega
      by_cases empty : chunk = []
      · subst empty
        obtain ⟨sock, left, delivered⟩ := ih (v := withSock v later) busy up fits small missing
          some content rfl
        refine ⟨sock, left, fun after ran => ?_⟩
        exact .head ⟨busy, poll_dropped sending up socket⟩ (delivered after ran)
      have readable : v.trans.sock.head? ≠ Option.some [] := by simpa [socket] using empty
      by_cases short : chunk.length < need.length
      · obtain ⟨need', rfl⟩ : chunk <+: need :=
          List.prefix_of_prefix_length_le ⟨later.flatten, content⟩ ⟨rest, rfl⟩ (by omega)
        rw [List.append_assoc] at content
        rw [List.length_append] at short missing toRead some
        have received : Returns (transReceive answers) v ()
            (withInput v (v.trans.inData ++ chunk) later) := by
          have taken : takeChunk (v.trans.headerSize - v.trans.inData.length) v.trans.sock =
              (chunk, later) := by
            rw [socket]
            exact take_chunk_whole later (by omega)
          refine receive_piece fits small (by omega) connected taken ?_
          rw [only_if_false (by rw [List.length_append]; omega)]
          rfl
        obtain ⟨sock, left, delivered⟩ := ih (v := withInput v (v.trans.inData ++ chunk) later)
          busy up fits small (by simp only [withInput, List.length_append]; omega) (by omega)
          (List.append_cancel_left content) rfl
        refine ⟨sock, left, fun after ran => ?_⟩
        refine .head ⟨busy, poll_readable sending up readable received⟩ (delivered after ?_)
        simpa [withInput] using ran
      · obtain ⟨extra, rfl⟩ : need <+: chunk :=
          List.prefix_of_prefix_length_le ⟨rest, rfl⟩ ⟨later.flatten, content⟩ (by omega)
        rw [List.append_assoc] at content
        obtain ⟨sock, taken, left⟩ := take_chunk_front need extra later
        refine ⟨sock, left.trans (List.append_cancel_left content), fun after ran => ?_⟩
        refine .single ⟨busy, poll_readable sending up readable ?_⟩
        rw [← toRead, ← socket] at taken
        refine receive_piece fits small (by omega) connected taken ?_
        rw [only_if_true (by rw [List.length_append, missing])]
        exact (returns_always _ _ _ _ _).mpr ⟨after, ran, rfl⟩

/-- The next bytes of a parser in the middle of an update reach it in one callback. -/
theorem callback_delivered {v : Vnc} {need rest : List Byte}
    (busy : v.framebufferParseState ≠ .waitMessageType) (on : v.incrementalFramebuffer = true)
    (up : v.trans.up = true) (fits : v.trans.headerSize ≤ v.trans.inSize)
    (small : v.trans.inSize < 2 ^ 32) (fresh : v.trans.inData = [])
    (size : need.length = v.trans.headerSize) (some : 0 < need.length)
    (content : v.trans.sock.flatten = need ++ rest) :
    ∃ sock, sock.flatten = rest ∧
      ∀ after, Returns (libFramebufferIncrementalData answers need)
          (countCallback (withInput v need sock)) () after →
        Relation.ReflTransGen (Polled answers) v (clearInData after) := by
  obtain ⟨sock, left, delivered⟩ :=
    polls_deliver sending busy up fits small (by rw [fresh]; simpa using size) some content
  rw [fresh, List.nil_append] at delivered
  refine ⟨sock, left, fun after ran => delivered (clearInData after) ?_⟩
  unfold libDataIn
  simp only [returns_bind, returns_read, returns_update]
  refine ⟨(), _, rfl, _, _, ⟨rfl, rfl⟩, (), after, ?_, rfl⟩
  unfold processData
  rw [if_pos ⟨on, busy⟩]
  exact ran

end Polls

end XrdpConsole.VncPolling
