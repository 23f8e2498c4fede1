import OmniStreaming.Duplex.EndOfText
import OmniStreaming.Duplex.StopRace
import OmniStreaming.Duplex.Delivery
import OmniStreaming.Talker.FreeBlocks
import OmniStreaming.Talker.ContextBound
import OmniStreaming.Talker.ContinuousDecode
import OmniStreaming.Talker.SamplerHistory
import OmniStreaming.Talker.StopFlush
import OmniStreaming.Talker.StateRelease
import OmniStreaming.Duplex.VocoderCount
import OmniStreaming.Duplex.WorkerFailure
import OmniStreaming.Duplex.Quiescence
import OmniStreaming.Stage.AbortIsolation
import OmniStreaming.Stage.AbortEffect
import OmniStreaming.Stage.SelectiveDrain
import OmniStreaming.Server.Teardown
import OmniStreaming.Server.Pipeline
import OmniStreaming.Server.Stream
import OmniStreaming.Server.SharedMemory
import OmniStreaming.Omni.Isolation
import OmniStreaming.Omni.Cleanup
import OmniStreaming.Omni.Offline
import OmniStreaming.Stage.SyncWorker
import OmniStreaming.Engine.ThinkerStream
import OmniStreaming.Engine.GenerationScheduler
import OmniStreaming.Connector.Transfer
import OmniStreaming.Connector.Configuration
import OmniStreaming.Engine.AdditionalInformation
import OmniStreaming.Stage.ActiveTasks
import OmniStreaming.Server.Utterances
import OmniStreaming.Server.ChatModalities
import OmniStreaming.Diffusion.Engine
import OmniStreaming.Diffusion.SequenceShard
import OmniStreaming.Diffusion.RankGroups
import OmniStreaming.Omni.Lockstep
import OmniStreaming.Diffusion.TeaCache
import OmniStreaming.Diffusion.Ulysses
import OmniStreaming.Diffusion.AllGather
import OmniStreaming.Diffusion.TensorDict
import OmniStreaming.Diffusion.RingAttention
import OmniStreaming.Model.Code2Wav
import OmniStreaming.Model.TalkerPrefill
import OmniStreaming.Model.MropePositions
