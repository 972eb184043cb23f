import Mino.Bridge.AckSafety
import Mino.Bridge.DataRetry
import Mino.Bridge.DurableMarks
import Mino.Shm.HandleResolver
import Mino.Shm.LargePoolClaims
import Mino.Shm.MpmcRuns
import Mino.Shm.MpscCleanUp
import Mino.Shm.MpscRelease
import Mino.Shm.SlabGenerations
import Mino.Shm.SlabReclaim
import Mino.Shm.SpscRuns
import Mino.Storage.RecoverableRuns
import Mino.Storage.Retention
import Mino.Storage.SchemaVersions
import Mino.Wire.Crc32c
import Mino.Wire.HeaderInspection
import Mino.Wire.StreamChunks
