import Tile38.Lib.Box
import Tile38.Lib.Simulation
import Tile38.RTree.Node
import Tile38.RTree.SortByAxis
import Tile38.RTree.Insert
import Tile38.RTree.Remove
import Tile38.RTree.Search
import Tile38.RTree.Invariant
import Tile38.RTree.InsertSpec
import Tile38.RTree.RemoveSpec
import Tile38.RTree.SearchSpec
import Tile38.RTree.Refinement
import Tile38.Lib.Utf8
import Tile38.Lib.Strings
import Tile38.Lib.Strconv
import Tile38.Glob.Match
import Tile38.Glob.Parse
import Tile38.Lib.Extended
import Tile38.Geo.Poly
import Tile38.Controller.ScanMatch
import Tile38.Geo.Object
import Tile38.Geo.Predicates
import Tile38.Collection.Collection
import Tile38.Collection.Invariant
import Tile38.Collection.Runs
import Tile38.Lib.KeyedSet
import Tile38.Controller.Commands
import Tile38.Collection.View
import Tile38.Controller.Aof
import Tile38.Controller.Replay
import Tile38.Geo.Relations
import Tile38.Collection.Search
import Tile38.Collection.Tree
import Tile38.RTree.Load
import Tile38.RTree.Capacity
import Tile38.Resp.Reader
import Tile38.Controller.Checksum
import Tile38.Lib.PriorityQueue
import Tile38.RTree.Knn
import Tile38.Controller.Keys
import Tile38.Controller.ScanWriter
import Tile38.Controller.Scan
import Tile38.Controller.Expire
import Tile38.Geo.Json
import Tile38.Glob.Lang
import Tile38.Lib.Iterate
import Tile38.Collection.Sparse
import Tile38.Bing.QuadKey
import Tile38.Geo.Raw
import Tile38.Controller.Config
import Tile38.Geo.Geohash
import Tile38.Controller.LegacyAof
import Tile38.Controller.Nearby
import Tile38.Controller.LiveAof
import Tile38.Controller.AofShrink
import Tile38.Controller.Follow
