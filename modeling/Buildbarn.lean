import Buildbarn.Io
import Buildbarn.Text
import Buildbarn.Blobstore.Digest
import Buildbarn.Blobstore.ChecksumValidatingReader
import Buildbarn.Blobstore.MerkleBlobAccess
import Buildbarn.Blobstore.RedisBlobAccess
import Buildbarn.Blobstore.RemoteBlobAccess
import Buildbarn.Blobstore.ResourceName
import Buildbarn.Blobstore.ByteStreamServer
import Buildbarn.Blobstore.ContentAddressableStorage
import Buildbarn.Blobstore.MerkleOverRedis
import Buildbarn.Blobstore.Frontend
import Buildbarn.Blobstore.Cas
import Buildbarn.Blobstore.Sharding.GetBackend
import Buildbarn.Blobstore.Sharding.FindMissing
import Buildbarn.Ac.BlobAccessActionCache
import Buildbarn.Worker
