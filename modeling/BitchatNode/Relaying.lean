-- A packet that arrives is relayed once at most, whatever its type: the bytes
-- that came in, with their TTL lowered by one.
import BitchatNode.Bystander

namespace daemon

open python bitchat bitchat.protocol bitchat.encryption

variable [Packages]

/-- From `w` to `w'` at most one relay was scheduled, that of these bytes. -/
def MayRelay (raw : Bytes) (ttl : UInt8) (w w' : World) : Prop :=
  SameRelays w w' ∨ 1 < ttl ∧ relays w'.out = relays w.out ++ [with_ttl raw (ttl - 1)]

section

variable {raw : Bytes} {ttl : UInt8}

theorem SameRelays.mayRelay {w w' : World} (h : SameRelays w w') : MayRelay raw ttl w w' := .inl h

theorem SameRelays.trans_mayRelay {u v w : World} (h : SameRelays u v) (g : MayRelay raw ttl v w) :
    MayRelay raw ttl u w := by
  rcases g with hsame | ⟨httl, hrelay⟩
  · exact .inl (trans_of SameRelays h hsame)
  · refine .inr ⟨httl, ?_⟩
    rw [hrelay, show relays v.out = relays u.out from h]

theorem mayRelay_of_same {α : Type} {x : Mesh α} (h : Moves SameRelays x) :
    Moves (MayRelay raw ttl) x := h.mono fun _ _ => SameRelays.mayRelay

theorem mayRelay_bind {α β : Type} {x : Mesh α} {f : α → Mesh β} (hx : Moves SameRelays x)
    (hf : ∀ a, Moves (MayRelay raw ttl) (f a)) : Moves (MayRelay raw ttl) (x >>= f) :=
  hx.bind_last hf (fun _ _ => SameRelays.mayRelay) fun _ _ _ => SameRelays.trans_mayRelay

theorem mayRelay_relay : Moves (MayRelay raw ttl) (relay raw ttl) := by
  intro w
  rw [exec_relay]
  split
  · rename_i httl
    exact .inr ⟨httl, relays_append w.out _⟩
  · exact .inl rfl

end

section

variable {packet : BitchatPacket} {raw : Bytes}

theorem mayRelay_accept_message (env : Env) (is_private : Bool) (payload : Bytes) :
    Moves (MayRelay raw packet.ttl) (accept_message env packet raw is_private payload) := by
  unfold accept_message
  apply mayRelay_bind (Moves.outcome _)
  intro message
  apply mayRelay_bind moves_node
  intro self
  apply Moves.ite
  · exact mayRelay_of_same (Moves.pure ())
  · apply mayRelay_bind (sameRelays_deliver _ _ _)
    intro _
    apply mayRelay_bind ((calm_sameRelays env).acknowledge _ _ _)
    intro _
    exact mayRelay_relay

theorem mayRelay_handle_message (env : Env) :
    Moves (MayRelay raw packet.ttl) (handle_message env packet raw) := by
  unfold handle_message
  apply mayRelay_bind moves_node
  intro self
  apply Moves.ite
  · exact mayRelay_of_same (Moves.pure ())
  · apply Moves.ite
    · exact Moves.suppress (mayRelay_accept_message env false _)
    · apply Moves.ite
      · apply mayRelay_bind (Moves.attempt ((calm_sameRelays env).service _))
        intro result
        split
        · exact Moves.suppress (mayRelay_accept_message env true _)
        · exact mayRelay_of_same (Moves.pure ())
        · exact mayRelay_of_same (Moves.throw _)
      · exact mayRelay_relay

theorem mayRelay_handle_delivery_ack (env : Env) :
    Moves (MayRelay raw packet.ttl) (handle_delivery_ack packet raw) := by
  unfold handle_delivery_ack
  apply mayRelay_bind moves_node
  intro self
  apply Moves.ite
  · apply mayRelay_of_same
    refine Moves.bind ((calm_sameRelays env).open_ack packet) fun payload => ?_
    split
    · exact (calm_sameRelays env).take_ack _
    · exact Moves.pure ()
  · exact mayRelay_relay

theorem mayRelay_handle_leave : Moves (MayRelay raw packet.ttl) (handle_leave packet raw) := by
  unfold handle_leave take_leave
  apply mayRelay_bind
  · apply Moves.ite
    · exact Moves.pure ()
    · exact sameRelays_of_quiet (quiet_remove_peer _)
  · intro _
    exact mayRelay_relay

/-- A fragment is dropped, or it is so short that it is only relayed. -/
theorem mayRelay_handle_fragment (env : Env) :
    Moves (MayRelay raw packet.ttl) (handle_fragment env packet raw) := by
  intro w
  by_cases hlength : 13 ≤ packet.payload.length
  · rw [exec_handle_fragment env packet raw w hlength]
    exact .inl rfl
  · rw [exec_handle_fragment_short env packet raw w hlength]
    exact mayRelay_relay w

theorem mayRelay_handle (env : Env) : Moves (MayRelay raw packet.ttl) (handle env packet raw) := by
  have hquiet {x : Mesh Unit} (h : Moves Quiet x) : Moves (MayRelay raw packet.ttl) x :=
    mayRelay_of_same (sameRelays_of_quiet h)
  unfold handle handler
  cases packet.msg_type with
  | MESSAGE => exact mayRelay_handle_message env
  | DELIVERY_ACK => exact mayRelay_handle_delivery_ack env
  | FRAGMENT_START | FRAGMENT_CONTINUE | FRAGMENT_END => exact mayRelay_handle_fragment env
  | LEAVE => exact mayRelay_handle_leave
  | NOISE_ENCRYPTED => exact mayRelay_of_same (sameRelays_handle_noise_encrypted env packet)
  | ANNOUNCE => exact hquiet (quiet_announced _ _)
  | KEY_EXCHANGE => exact hquiet ((calm_quiet env).handle_key_exchange packet)
  | CHANNEL_ANNOUNCE => exact hquiet ((calm_quiet env).handle_channel_announce packet)
  | NOISE_HANDSHAKE_INIT | NOISE_HANDSHAKE_RESP =>
    exact hquiet ((calm_quiet env).handle_noise_handshake _ packet)
  | NOISE_IDENTITY_ANNOUNCE =>
    exact hquiet ((calm_quiet env).handle_noise_identity_announce quiet_announced packet)
  | _ => exact hquiet (Moves.pure ())

end

/-- What arrives is relayed once at most, with the TTL of its third byte. -/
theorem mayRelay_on_packet_received (env : Env) (conn : PeerConnection) (raw : Bytes) :
    Moves (MayRelay raw (raw.getD 2 0)) (on_packet_received env conn raw) := by
  unfold on_packet_received
  apply mayRelay_bind moves_node
  intro self
  split
  · exact mayRelay_of_same (Moves.pure ())
  · rename_i packet hparse
    rw [← (parse_ttl hparse).2]
    apply Moves.ite
    · exact mayRelay_of_same (Moves.pure ())
    · refine mayRelay_bind (fun _ => rfl) ?_
      intro _
      exact Moves.suppress (mayRelay_handle env)

end daemon
